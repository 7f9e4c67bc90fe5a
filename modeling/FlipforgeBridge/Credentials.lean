import FlipforgeBridge.BridgeConfig
import FlipforgeBridge.Process.Crash

/-!
`bridge_credentials.c`, over a flash that keeps what was written when the power goes. A password
and a secret are made once, together, and from then on only read.
-/
namespace FlipforgeBridge
open Process

namespace Credentials

/-- The results of NVS calls that the code tells apart. -/
inductive NvsErr
  | ok | notFound | other (code : ℕ)
  deriving DecidableEq, Repr

/-- What a read leaves: its error, the size it reports and the caller's buffer. -/
structure NvsRead (n : ℕ) where
  error : NvsErr
  size : ℕ
  bytes : Vector UInt8 n
  deriving DecidableEq, Repr

/-- A write with its error. `written` is not seen by the code: a write that fails may still have
changed the flash. -/
structure NvsWrite where
  error : NvsErr
  written : Bool
  deriving DecidableEq, Repr

inductive Op
  | nvsOpen
  | nvsGetStr (buffer : Vector UInt8 (bridgeApPasswordBytes + 1))
  | nvsGetBlob (buffer : Vector UInt8 bridgePairingSecretBytes)
  | nvsSetStr (value : Vector UInt8 (bridgeApPasswordBytes + 1))
  | nvsSetBlob (value : Vector UInt8 bridgePairingSecretBytes)
  | nvsCommit | nvsClose
  | fillRandom (n : ℕ)

@[reducible] def Op.Res : Op → Type
  | .nvsOpen | .nvsCommit => NvsErr
  | .nvsGetStr _ => NvsRead (bridgeApPasswordBytes + 1)
  | .nvsGetBlob _ => NvsRead bridgePairingSecretBytes
  | .nvsSetStr _ | .nvsSetBlob _ => NvsWrite
  | .nvsClose => Unit
  | .fillRandom n => Vector UInt8 n

abbrev nvs : Interface := ⟨Op, Op.Res⟩

def op (o : Op) : Prog nvs o.Res := .perform (ι := nvs) o

/-! ### The code -/

structure BridgeCredentials where
  apPassword : Vector UInt8 (bridgeApPasswordBytes + 1)
  pairingSecret : Vector UInt8 bridgePairingSecretBytes
  newlyCreated : Bool
  deriving DecidableEq, Repr

/-- `memset(credentials, 0, sizeof(*credentials))`; also `bridge_credentials_clear`. -/
def bridgeCredentialsClear : BridgeCredentials := ⟨.replicate _ 0, .replicate _ 0, false⟩

def credentialAlphabet : List UInt8 :=
  "ABCDEFGHJKLMNPQRSTUVWXYZabcdefghijkmnopqrstuvwxyz23456789".toList.map fun c => c.toNat.toUInt8

/-- `generate_password`, from the random bytes it draws. -/
def generatePassword (random : Vector UInt8 bridgeApPasswordBytes) :
    Vector UInt8 (bridgeApPasswordBytes + 1) :=
  (random.map fun byte =>
    credentialAlphabet.getD (byte.toNat % credentialAlphabet.length) 0).push 0

def bridgeCredentialsLoadOrCreate : Prog nvs (NvsErr × BridgeCredentials) := do
  let credentials := bridgeCredentialsClear
  let error : NvsErr ← op .nvsOpen
  if error ≠ .ok then return (error, credentials)
  let password : NvsRead (bridgeApPasswordBytes + 1) ← op (.nvsGetStr credentials.apPassword)
  let secret : NvsRead bridgePairingSecretBytes ← op (.nvsGetBlob credentials.pairingSecret)
  let credentials :=
    { credentials with apPassword := password.bytes, pairingSecret := secret.bytes }
  if password.error = .ok ∧ secret.error = .ok ∧ password.size = bridgeApPasswordBytes + 1 ∧
      secret.size = bridgePairingSecretBytes then
    op .nvsClose
    return (.ok, credentials)
  if (password.error ≠ .notFound ∧ password.error ≠ .ok) ∨
      (secret.error ≠ .notFound ∧ secret.error ≠ .ok) then
    op .nvsClose
    return (if password.error ≠ .ok ∧ password.error ≠ .notFound then password.error
      else secret.error, bridgeCredentialsClear)
  let random : Vector UInt8 bridgeApPasswordBytes ← op (.fillRandom bridgeApPasswordBytes)
  let credentials := { credentials with apPassword := generatePassword random }
  let random : Vector UInt8 bridgePairingSecretBytes ← op (.fillRandom bridgePairingSecretBytes)
  let credentials := { credentials with pairingSecret := random }
  let written : NvsWrite ← op (.nvsSetStr credentials.apPassword)
  let error ← (if written.error = .ok then do
      let written : NvsWrite ← op (.nvsSetBlob credentials.pairingSecret)
      pure written.error
    else pure written.error)
  let error ← (if error = .ok then op .nvsCommit else pure error)
  op .nvsClose
  if error ≠ .ok then return (error, bridgeCredentialsClear)
  return (.ok, { credentials with newlyCreated := true })

/-! ### The flash -/

/-- The two entries: a string with its terminator, and a blob. -/
structure Nvs where
  password : Option (List UInt8) := none
  secret : Option (List UInt8) := none
  deriving DecidableEq, Repr

/-- The bytes `nvs_set_str` stores of a buffer: up to its first zero, and that. -/
def cString (buffer : List UInt8) : List UInt8 := buffer.takeWhile (· ≠ 0) ++ [0]

/-- A present entry is read as it is, if it fits, or with an error that does not deny it; an
absent one is not found, or another error. -/
def NvsRead.Allowed {n : ℕ} (entry : Option (List UInt8)) (buffer : Vector UInt8 n)
    (read : NvsRead n) : Prop :=
  match entry, read.error with
  | some value, .ok => read.size = value.length ∧
      read.bytes.toList = value ++ buffer.toList.drop value.length
  | none, .notFound => True
  | _, .other _ => True
  | _, _ => False

instance {n : ℕ} : (entry : Option (List UInt8)) → (buffer : Vector UInt8 n) → (read : NvsRead n) →
    Decidable (read.Allowed entry buffer)
  | some value, buffer, ⟨.ok, size, bytes⟩ => inferInstanceAs (Decidable (size = value.length ∧
      bytes.toList = value ++ buffer.toList.drop value.length))
  | none, _, ⟨.notFound, _, _⟩ => .isTrue trivial
  | some _, _, ⟨.other _, _, _⟩ => .isTrue trivial
  | none, _, ⟨.other _, _, _⟩ => .isTrue trivial
  | some _, _, ⟨.notFound, _, _⟩ => .isFalse id
  | none, _, ⟨.ok, _, _⟩ => .isFalse id

/-- The entry after a write, which is only sure to be made if it succeeds. -/
def NvsWrite.apply (write : NvsWrite) (value : List UInt8) (entry : Option (List UInt8)) :
    Option (Option (List UInt8)) :=
  if write.written then some (some value)
  else if write.error = .ok then none
  else some entry

def effect : (o : Op) → o.Res → Nvs → Option Nvs
  | .nvsGetStr buffer, read, flash =>
    if read.Allowed flash.password buffer then some flash else none
  | .nvsGetBlob buffer, read, flash =>
    if read.Allowed flash.secret buffer then some flash else none
  | .nvsSetStr value, write, flash =>
    (write.apply (cString value.toList) flash.password).map fun entry =>
      { flash with password := entry }
  | .nvsSetBlob value, write, flash =>
    (write.apply value.toList flash.secret).map fun entry => { flash with secret := entry }
  | _, _, flash => some flash

/-- An operation with its result. -/
structure Done where
  op : Op
  res : op.Res

/-- The flash and what one call has done so far. -/
structure World where
  flash : Nvs
  log : List Done := []

def act (o : Op) (r : o.Res) (w : World) : Option World :=
  (effect o r w.flash).map fun flash => ⟨flash, w.log ++ [⟨o, r⟩]⟩

/-- One call, and its result if the power held. -/
structure Call where
  log : List Done
  outcome : Option (NvsErr × BridgeCredentials)

/-- Calls one after another from an empty flash, the last one first. -/
inductive History : List Call → Nvs → Prop
  | empty : History [] {}
  | call {past : List Call} {flash : Nvs} {outcome : Option (NvsErr × BridgeCredentials)}
      {w : World} (h : History past flash)
      (run : bridgeCredentialsLoadOrCreate.Reaches act ⟨flash, []⟩ outcome w) :
      History (⟨w.log, outcome⟩ :: past) w.flash

/-- The call drew this password and this secret. -/
def Drew (log : List Done) (password : Vector UInt8 (bridgeApPasswordBytes + 1))
    (secret : Vector UInt8 bridgePairingSecretBytes) : Prop :=
  (∃ random, ⟨.fillRandom bridgeApPasswordBytes, random⟩ ∈ log ∧
    password = generatePassword random) ∧
  ⟨.fillRandom bridgePairingSecretBytes, secret⟩ ∈ log

def writing : Op → Bool
  | .nvsSetStr _ | .nvsSetBlob _ | .nvsCommit => true
  | _ => false

/-- The flash with both entries. -/
def Nvs.holding (password : Vector UInt8 (bridgeApPasswordBytes + 1))
    (secret : Vector UInt8 bridgePairingSecretBytes) : Nvs :=
  ⟨some password.toList, some secret.toList⟩

/-! ### Sizes -/

theorem alphabet_ne_zero : ∀ c ∈ credentialAlphabet, c ≠ 0 := by decide +kernel

theorem alphabet_getD_ne_zero (n : ℕ) :
    credentialAlphabet.getD (n % credentialAlphabet.length) 0 ≠ 0 := by
  have hlt : n % credentialAlphabet.length < credentialAlphabet.length :=
    Nat.mod_lt _ (by decide)
  rw [List.getD_eq_getElem?_getD, List.getElem?_eq_getElem hlt, Option.getD_some]
  exact alphabet_ne_zero _ (List.getElem_mem hlt)

/-- A generated password is stored with all its characters. -/
theorem cString_generatePassword (random : Vector UInt8 bridgeApPasswordBytes) :
    cString (generatePassword random).toList = (generatePassword random).toList := by
  have hlist : (generatePassword random).toList = (random.map fun byte =>
      credentialAlphabet.getD (byte.toNat % credentialAlphabet.length) 0).toList ++ [0] := by
    simp [generatePassword, Vector.toList_push]
  have hall : ∀ c ∈ (random.map fun byte =>
      credentialAlphabet.getD (byte.toNat % credentialAlphabet.length) 0).toList,
      decide (c ≠ 0) = true := by
    intro c hc
    rw [Vector.toList_map, List.mem_map] at hc
    obtain ⟨byte, -, rfl⟩ := hc
    exact decide_eq_true (alphabet_getD_ne_zero _)
  rw [hlist, cString, List.takeWhile_append_of_pos hall]
  simp

/-- A successful read of a full-size entry. -/
theorem NvsRead.Allowed.bytes_eq {n : ℕ} {value buffer : Vector UInt8 n} {read : NvsRead n}
    (h : read.Allowed (some value.toList) buffer) (hok : read.error = .ok) :
    read.bytes = value ∧ read.size = n := by
  unfold Allowed at h
  rw [hok] at h
  obtain ⟨hsize, hbytes⟩ := h
  have hlength : value.toList.length = n := Vector.length_toList
  have hroom : buffer.toList.length = n := Vector.length_toList
  have hdrop : buffer.toList.drop value.toList.length = [] := List.drop_eq_nil_of_le (by omega)
  rw [hdrop, List.append_nil] at hbytes
  exact ⟨Vector.toList_inj.mp hbytes, hsize.trans hlength⟩

theorem NvsRead.Allowed.found {n : ℕ} {value : List UInt8} {buffer : Vector UInt8 n}
    {read : NvsRead n} (h : read.Allowed (some value) buffer) : read.error ≠ .notFound := by
  intro herror
  unfold Allowed at h
  rw [herror] at h
  cases h

theorem NvsRead.Allowed.absent {n : ℕ} {buffer : Vector UInt8 n} {read : NvsRead n}
    (h : read.Allowed none buffer) : read.error ≠ .ok := by
  intro herror
  unfold Allowed at h
  rw [herror] at h
  cases h

/-! ### One call -/

/-- One more operation, the flash being left alone. -/
def World.after (w : World) (o : Op) (r : o.Res) : World := ⟨w.flash, w.log ++ [⟨o, r⟩]⟩

section Call
variable {α : Type} {C : World → Prop} {Q : α → World → Prop} {w : World}

theorem survives_pure {a : α} (hC : C w) (hQ : Q a w) :
    (pure a : Prog nvs α).Survives act C Q w := (Prog.survives_ret a).mpr ⟨hC, hQ⟩

theorem survives_neutral {o : Op} {k : o.Res → Prog nvs α} (hC : C w)
    (heffect : ∀ r, effect o r w.flash = some w.flash)
    (hk : ∀ r, (k r).Survives act C Q (w.after o r)) : (op o >>= k).Survives act C Q w := by
  apply Prog.Survives.perform hC
  intro r w' hr
  rw [act, heffect r] at hr
  cases hr
  exact hk r

theorem survives_getStr {buffer : Vector UInt8 (bridgeApPasswordBytes + 1)}
    {k : NvsRead (bridgeApPasswordBytes + 1) → Prog nvs α} (hC : C w)
    (hk : ∀ read, read.Allowed w.flash.password buffer →
      (k read).Survives act C Q (w.after (.nvsGetStr buffer) read)) :
    (op (.nvsGetStr buffer) >>= k).Survives act C Q w := by
  apply Prog.Survives.perform hC
  intro read w' hr
  obtain ⟨flash, hflash, rfl⟩ := Option.map_eq_some_iff.mp hr
  obtain ⟨hallowed, hsame⟩ := Option.ite_none_right_eq_some.mp hflash
  cases hsame
  exact hk read hallowed

theorem survives_getBlob {buffer : Vector UInt8 bridgePairingSecretBytes}
    {k : NvsRead bridgePairingSecretBytes → Prog nvs α} (hC : C w)
    (hk : ∀ read, read.Allowed w.flash.secret buffer →
      (k read).Survives act C Q (w.after (.nvsGetBlob buffer) read)) :
    (op (.nvsGetBlob buffer) >>= k).Survives act C Q w := by
  apply Prog.Survives.perform hC
  intro read w' hr
  obtain ⟨flash, hflash, rfl⟩ := Option.map_eq_some_iff.mp hr
  obtain ⟨hallowed, hsame⟩ := Option.ite_none_right_eq_some.mp hflash
  cases hsame
  exact hk read hallowed

/-- A write that succeeds is made; one that fails may be. -/
theorem NvsWrite.apply_eq_some {write : NvsWrite} {value : List UInt8}
    {entry entry' : Option (List UInt8)} (h : write.apply value entry = some entry') :
    entry' = some value ∨ write.error ≠ .ok ∧ entry' = entry := by
  unfold apply at h
  by_cases hwritten : write.written = true
  · rw [if_pos hwritten] at h
    exact .inl (Option.some_inj.mp h).symm
  · rw [if_neg hwritten] at h
    obtain ⟨herror, hsame⟩ := Option.ite_none_left_eq_some.mp h
    exact .inr ⟨herror, (Option.some_inj.mp hsame).symm⟩

theorem survives_setStr {value : Vector UInt8 (bridgeApPasswordBytes + 1)}
    {k : NvsWrite → Prog nvs α} (hC : C w)
    (hk : ∀ write entry, entry = some (cString value.toList) ∨
        write.error ≠ .ok ∧ entry = w.flash.password →
      (k write).Survives act C Q
        ⟨{ w.flash with password := entry }, w.log ++ [⟨.nvsSetStr value, write⟩]⟩) :
    (op (.nvsSetStr value) >>= k).Survives act C Q w := by
  apply Prog.Survives.perform hC
  intro write w' hr
  obtain ⟨flash, hflash, rfl⟩ := Option.map_eq_some_iff.mp hr
  obtain ⟨entry, hentry, rfl⟩ := Option.map_eq_some_iff.mp hflash
  exact hk write entry (NvsWrite.apply_eq_some hentry)

theorem survives_setBlob {value : Vector UInt8 bridgePairingSecretBytes}
    {k : NvsWrite → Prog nvs α} (hC : C w)
    (hk : ∀ write entry, entry = some value.toList ∨
        write.error ≠ .ok ∧ entry = w.flash.secret →
      (k write).Survives act C Q
        ⟨{ w.flash with secret := entry }, w.log ++ [⟨.nvsSetBlob value, write⟩]⟩) :
    (op (.nvsSetBlob value) >>= k).Survives act C Q w := by
  apply Prog.Survives.perform hC
  intro write w' hr
  obtain ⟨flash, hflash, rfl⟩ := Option.map_eq_some_iff.mp hr
  obtain ⟨entry, hentry, rfl⟩ := Option.map_eq_some_iff.mp hflash
  exact hk write entry (NvsWrite.apply_eq_some hentry)

end Call

/-- The error reported when a read failed. -/
theorem read_error_ne_ok {password secret : NvsErr}
    (h : (password ≠ .notFound ∧ password ≠ .ok) ∨ (secret ≠ .notFound ∧ secret ≠ .ok)) :
    (if password ≠ .ok ∧ password ≠ .notFound then password else secret) ≠ .ok := by
  by_cases hpassword : password ≠ .ok ∧ password ≠ .notFound
  · rw [if_pos hpassword]
    exact hpassword.1
  · rw [if_neg hpassword]
    rcases h with h | h
    · exact absurd h.symm hpassword
    · exact h.2

/-- Credentials that satisfy `P`, or an error and all zeroes. -/
def Ends (P : BridgeCredentials → Prop) (result : NvsErr × BridgeCredentials) : Prop :=
  (result.1 = .ok → P result.2) ∧ (result.1 ≠ .ok → result.2 = bridgeCredentialsClear)

theorem Ends.failed {P : BridgeCredentials → Prop} {error : NvsErr} (h : error ≠ .ok) :
    Ends P (error, bridgeCredentialsClear) :=
  ⟨fun hok => absurd hok h, fun _ => rfl⟩

theorem Ends.made {P : BridgeCredentials → Prop} {credentials : BridgeCredentials}
    (h : P credentials) : Ends P (.ok, credentials) :=
  ⟨fun _ => h, fun herror => absurd rfl herror⟩

variable {password : Vector UInt8 (bridgeApPasswordBytes + 1)}
  {secret : Vector UInt8 bridgePairingSecretBytes}

/-- Nothing was written. -/
def Reading (flash : Nvs) (w : World) : Prop := w.flash = flash ∧ ∀ d ∈ w.log, writing d.op = false

theorem Reading.after {flash : Nvs} {w : World} {o : Op} (h : Reading flash w)
    (ho : writing o = false) (r : o.Res) : Reading flash (w.after o r) := by
  constructor
  · exact h.1
  · exact List.forall_mem_append.mpr ⟨h.2, List.forall_mem_singleton.mpr ho⟩

/-- With both entries present a call only reads. -/
theorem survives_holding : bridgeCredentialsLoadOrCreate.Survives act
    (Reading (.holding password secret))
    (fun result _ => Ends (· = ⟨password, secret, false⟩) result)
    ⟨.holding password secret, []⟩ := by
  have hstart : Reading (.holding password secret) ⟨.holding password secret, []⟩ := ⟨rfl, by simp⟩
  apply survives_neutral hstart (fun _ => rfl)
  intro error
  have hopened := hstart.after (o := .nvsOpen) rfl error
  by_cases herror : error ≠ .ok
  · rw [if_pos herror]
    exact survives_pure hopened (.failed herror)
  rw [if_neg herror]
  apply survives_getStr hopened
  intro readPassword hpassword
  have hgot := hopened.after (o := .nvsGetStr bridgeCredentialsClear.apPassword) rfl readPassword
  apply survives_getBlob hgot
  intro readSecret hsecret
  have hread := hgot.after (o := .nvsGetBlob bridgeCredentialsClear.pairingSecret) rfl readSecret
  by_cases hvalid : readPassword.error = .ok ∧ readSecret.error = .ok ∧
      readPassword.size = bridgeApPasswordBytes + 1 ∧ readSecret.size = bridgePairingSecretBytes
  · rw [if_pos hvalid]
    apply survives_neutral hread (fun _ => rfl)
    intro _
    apply survives_pure (hread.after rfl _)
    rw [(hpassword.bytes_eq hvalid.1).1, (hsecret.bytes_eq hvalid.2.1).1]
    exact .made rfl
  rw [if_neg hvalid]
  have hfailed : (readPassword.error ≠ .notFound ∧ readPassword.error ≠ .ok) ∨
      (readSecret.error ≠ .notFound ∧ readSecret.error ≠ .ok) := by
    by_cases hok : readPassword.error = .ok ∧ readSecret.error = .ok
    · have hsizes := And.intro (hpassword.bytes_eq hok.1).2 (hsecret.bytes_eq hok.2).2
      exact absurd ⟨hok.1, hok.2, hsizes⟩ hvalid
    · rcases not_and_or.mp hok with h | h
      · exact .inl ⟨hpassword.found, h⟩
      · exact .inr ⟨hsecret.found, h⟩
  rw [if_pos hfailed]
  apply survives_neutral hread (fun _ => rfl)
  intro _
  exact survives_pure (hread.after rfl _) (.failed (read_error_ne_ok hfailed))

/-- The flash has no secret, or the pair this call drew. -/
def Making (w : World) : Prop :=
  w.flash.secret = none ∨ ∃ password secret, Drew w.log password secret ∧
    w.flash = .holding password secret

theorem Drew.concat {log : List Done} (h : Drew log password secret) (d : Done) :
    Drew (log ++ [d]) password secret := by
  obtain ⟨⟨random, hrandom, hpassword⟩, hsecret⟩ := h
  constructor
  · exact ⟨random, List.mem_append_left _ hrandom, hpassword⟩
  · exact List.mem_append_left _ hsecret

theorem Making.after {w : World} (h : Making w) (o : Op) (r : o.Res) : Making (w.after o r) := by
  rcases h with h | ⟨password, secret, hdrew, hflash⟩
  · exact .inl h
  · exact .inr ⟨password, secret, hdrew.concat _, hflash⟩

/-- What a call without a secret in the flash ends with. -/
def Made (result : NvsErr × BridgeCredentials) (w : World) : Prop :=
  Ends (fun credentials => credentials.newlyCreated = true ∧
    Drew w.log credentials.apPassword credentials.pairingSecret ∧
    w.flash = .holding credentials.apPassword credentials.pairingSecret) result

/-- The commit and what follows. -/
theorem survives_commit {error : NvsErr} {w : World} (hw : Making w)
    (hmade : error = .ok → Drew w.log password secret ∧ w.flash = .holding password secret) :
    (do
      let error ← (if error = .ok then op .nvsCommit else pure error)
      op .nvsClose
      if error ≠ .ok then return (error, bridgeCredentialsClear)
      return (.ok, ⟨password, secret, true⟩) : Prog nvs (NvsErr × BridgeCredentials)).Survives act
        Making Made w := by
  by_cases herror : error = .ok
  · rw [if_pos herror]
    obtain ⟨hdrew, hflash⟩ := hmade herror
    apply survives_neutral hw (fun _ => rfl)
    intro committed
    have hcommitted := hw.after .nvsCommit committed
    apply survives_neutral hcommitted (fun _ => rfl)
    intro _
    have hclosed := hcommitted.after .nvsClose ()
    by_cases hfailed : committed ≠ .ok
    · rw [if_pos hfailed]
      exact survives_pure hclosed (.failed hfailed)
    · rw [if_neg hfailed]
      exact survives_pure hclosed (.made ⟨rfl, (hdrew.concat _).concat _, hflash⟩)
  · rw [if_neg herror]
    apply survives_neutral hw (fun _ => rfl)
    intro _
    have hclosed := hw.after .nvsClose ()
    rw [if_pos herror]
    exact survives_pure hclosed (.failed herror)

/-- The writes of a pair just drawn. -/
theorem survives_store {random : Vector UInt8 bridgeApPasswordBytes} {w : World}
    (h : w.flash.secret = none) (hdrew : Drew w.log (generatePassword random) secret) :
    (do
      let written : NvsWrite ← op (.nvsSetStr (generatePassword random))
      let error ← (if written.error = .ok then do
          let written : NvsWrite ← op (.nvsSetBlob secret)
          pure written.error
        else pure written.error)
      let error ← (if error = .ok then op .nvsCommit else pure error)
      op .nvsClose
      if error ≠ .ok then return (error, bridgeCredentialsClear)
      return (.ok, ⟨generatePassword random, secret, true⟩) :
        Prog nvs (NvsErr × BridgeCredentials)).Survives act Making Made w := by
  apply survives_setStr (.inl h)
  intro write entry hentry
  apply Prog.survives_bind
  by_cases hset : write.error = .ok
  · rw [if_pos hset]
    obtain rfl : entry = some (cString (generatePassword random).toList) := by
      rcases hentry with hentry | hentry
      · exact hentry
      · exact absurd hset hentry.1
    rw [cString_generatePassword]
    apply survives_setBlob (.inl h)
    intro write' entry' hentry'
    have hmaking : Making ⟨⟨some (generatePassword random).toList, entry'⟩,
        w.log ++ [⟨.nvsSetStr (generatePassword random), write⟩] ++
          [⟨.nvsSetBlob secret, write'⟩]⟩ := by
      rcases hentry' with rfl | ⟨-, rfl⟩
      · exact .inr ⟨_, _, (hdrew.concat _).concat _, rfl⟩
      · exact .inl h
    apply survives_pure hmaking
    apply survives_commit hmaking
    intro hok
    rcases hentry' with rfl | ⟨herror, -⟩
    · exact ⟨(hdrew.concat _).concat _, rfl⟩
    · exact absurd hok herror
  · rw [if_neg hset]
    exact survives_pure (.inl h) (survives_commit (.inl h) fun hok => absurd hok hset)

/-- Without a secret a call makes both, or leaves a flash without a secret or with both. -/
theorem survives_fresh {flash : Nvs} (h : flash.secret = none) :
    bridgeCredentialsLoadOrCreate.Survives act Making Made ⟨flash, []⟩ := by
  have hstart : Making ⟨flash, []⟩ := .inl h
  apply survives_neutral hstart (fun _ => rfl)
  intro error
  have hopened := hstart.after .nvsOpen error
  by_cases herror : error ≠ .ok
  · rw [if_pos herror]
    exact survives_pure hopened (.failed herror)
  rw [if_neg herror]
  apply survives_getStr hopened
  intro readPassword _
  have hgot := hopened.after (.nvsGetStr bridgeCredentialsClear.apPassword) readPassword
  apply survives_getBlob hgot
  intro readSecret hsecret
  have hread := hgot.after (.nvsGetBlob bridgeCredentialsClear.pairingSecret) readSecret
  have habsent : readSecret.error ≠ .ok := by
    change readSecret.Allowed flash.secret _ at hsecret
    rw [h] at hsecret
    exact hsecret.absent
  rw [if_neg fun hvalid => habsent hvalid.2.1]
  by_cases hfailed : (readPassword.error ≠ .notFound ∧ readPassword.error ≠ .ok) ∨
      (readSecret.error ≠ .notFound ∧ readSecret.error ≠ .ok)
  · rw [if_pos hfailed]
    apply survives_neutral hread (fun _ => rfl)
    intro _
    exact survives_pure (hread.after _ _) (.failed (read_error_ne_ok hfailed))
  rw [if_neg hfailed]
  apply survives_neutral hread (fun _ => rfl)
  intro random
  have hdrawn := hread.after (.fillRandom bridgeApPasswordBytes) random
  apply survives_neutral hdrawn (fun _ => rfl)
  intro secret
  apply survives_store h
  constructor
  · exact ⟨random, by simp [World.after], rfl⟩
  · simp [World.after]

/-! ### Every history -/

/-- What the calls so far have made of the flash. -/
structure Kept (calls : List Call) (flash : Nvs) : Prop where
  pair : flash.secret = none ∨ ∃ password secret,
    (∃ maker ∈ calls, Drew maker.log password secret) ∧ flash = .holding password secret
  settled : ∀ call ∈ calls, ∀ credentials, call.outcome = some (.ok, credentials) →
    flash = .holding credentials.apPassword credentials.pairingSecret

/-- What one call adds. -/
structure Added (past : List Call) (call : Call) (flash : Nvs) : Prop where
  kept : Kept (call :: past) flash
  same : ∀ earlier ∈ past, ∀ credentials, earlier.outcome = some (.ok, credentials) →
    (∀ d ∈ call.log, writing d.op = false) ∧ ∀ credentials',
      call.outcome = some (.ok, credentials') →
        credentials' = { credentials with newlyCreated := false }
  cleared : ∀ error credentials, call.outcome = some (error, credentials) → error ≠ .ok →
    credentials = bridgeCredentialsClear

theorem Kept.fresh {past : List Call} {flash : Nvs} (h : Kept past flash)
    (hnone : flash.secret = none) {outcome : Option (NvsErr × BridgeCredentials)} {w : World}
    (run : bridgeCredentialsLoadOrCreate.Reaches act ⟨flash, []⟩ outcome w) :
    Added past ⟨w.log, outcome⟩ w.flash := by
  obtain ⟨hmaking, hmade⟩ := (survives_fresh hnone).reaches run
  have hfirst : ∀ earlier ∈ past, ∀ credentials, earlier.outcome ≠ some (.ok, credentials) := by
    intro earlier hearlier credentials hok
    rw [h.settled earlier hearlier credentials hok] at hnone
    cases hnone
  constructor
  · constructor
    · rcases hmaking with hmaking | ⟨password, secret, hdrew, hflash⟩
      · exact .inl hmaking
      · exact .inr ⟨password, secret, ⟨_, List.mem_cons_self, hdrew⟩, hflash⟩
    · intro call hcall credentials hok
      rcases List.mem_cons.mp hcall with rfl | hcall
      · exact ((hmade _ hok).1 rfl).2.2
      · exact absurd hok (hfirst call hcall credentials)
  · intro earlier hearlier credentials hok
    exact absurd hok (hfirst earlier hearlier credentials)
  · intro error credentials houtcome herror
    exact (hmade _ houtcome).2 herror

theorem Kept.holding {past : List Call} (h : Kept past (.holding password secret))
    (hmaker : ∃ maker ∈ past, Drew maker.log password secret)
    {outcome : Option (NvsErr × BridgeCredentials)} {w : World}
    (run : bridgeCredentialsLoadOrCreate.Reaches act ⟨.holding password secret, []⟩ outcome w) :
    Added past ⟨w.log, outcome⟩ w.flash := by
  obtain ⟨hreading, hends⟩ := survives_holding.reaches run
  have hreturned (credentials : BridgeCredentials) (hok : outcome = some (.ok, credentials)) :
      credentials = ⟨password, secret, false⟩ := (hends _ hok).1 rfl
  rw [hreading.1]
  constructor
  · constructor
    · obtain ⟨maker, hmem, hdrew⟩ := hmaker
      exact .inr ⟨password, secret, ⟨maker, List.mem_cons_of_mem _ hmem, hdrew⟩, rfl⟩
    · intro call hcall credentials hok
      rcases List.mem_cons.mp hcall with rfl | hcall
      · rw [hreturned credentials hok]
      · exact h.settled call hcall credentials hok
  · intro earlier hearlier credentials hok
    constructor
    · exact hreading.2
    · intro credentials' hok'
      have hsame := h.settled earlier hearlier credentials hok
      obtain ⟨hpassword, hsecret⟩ := Nvs.mk.inj hsame
      rw [hreturned credentials' hok', Vector.toList_inj.mp (Option.some_inj.mp hpassword),
        Vector.toList_inj.mp (Option.some_inj.mp hsecret)]
  · intro error credentials houtcome herror
    exact (hends _ houtcome).2 herror

theorem Kept.call {past : List Call} {flash : Nvs} (h : Kept past flash)
    {outcome : Option (NvsErr × BridgeCredentials)} {w : World}
    (run : bridgeCredentialsLoadOrCreate.Reaches act ⟨flash, []⟩ outcome w) :
    Added past ⟨w.log, outcome⟩ w.flash := by
  rcases h.pair with hnone | ⟨password, secret, hmaker, rfl⟩
  · exact h.fresh hnone run
  · exact h.holding hmaker run

theorem History.kept {calls : List Call} {flash : Nvs} (h : History calls flash) :
    Kept calls flash := by
  induction h with
  | empty =>
    constructor
    · exact .inl rfl
    · intro call hcall
      cases hcall
  | call _ run ih => exact (ih.call run).kept

/-- Whatever fails and wherever the power goes: credentials returned were drawn by one call and are
those in the flash; from then on no call writes, and none returns others; a call that reports an
error returns zeroes; and a generated password is read back whole. -/
theorem credentials_created_once {past : List Call} {call : Call} {flash : Nvs}
    (h : History (call :: past) flash) :
    (∀ credentials, call.outcome = some (.ok, credentials) →
      (∃ maker ∈ call :: past,
        Drew maker.log credentials.apPassword credentials.pairingSecret) ∧
      flash = .holding credentials.apPassword credentials.pairingSecret) ∧
    (∀ earlier ∈ past, ∀ credentials, earlier.outcome = some (.ok, credentials) →
      (∀ d ∈ call.log, writing d.op = false) ∧ ∀ credentials',
        call.outcome = some (.ok, credentials') →
          credentials' = { credentials with newlyCreated := false }) ∧
    (∀ error credentials, call.outcome = some (error, credentials) → error ≠ .ok →
      credentials = bridgeCredentialsClear) ∧
    ∀ random buffer (read : NvsRead (bridgeApPasswordBytes + 1)),
      read.Allowed (some (cString (generatePassword random).toList)) buffer → read.error = .ok →
      read.bytes = generatePassword random ∧ read.size = bridgeApPasswordBytes + 1 := by
  have hkept := h.kept
  cases h with
  | call hpast run =>
    have hadded := hpast.kept.call run
    refine ⟨?_, hadded.same, hadded.cleared, ?_⟩
    · intro credentials hok
      have hflash := hkept.settled _ List.mem_cons_self credentials hok
      rw [hflash] at hkept
      rcases hkept.pair with hnone | ⟨password, secret, hmaker, hpair⟩
      · cases hnone
      · obtain ⟨hpassword, hsecret⟩ := Nvs.mk.inj hpair
        rw [Vector.toList_inj.mp (Option.some_inj.mp hpassword),
          Vector.toList_inj.mp (Option.some_inj.mp hsecret)]
        exact ⟨hmaker, hpair ▸ hflash⟩
    · intro random buffer read hallowed hok
      rw [cString_generatePassword] at hallowed
      exact hallowed.bytes_eq hok

/-- A call cut after its first write. -/
def cutLog : List Done :=
  [⟨.nvsOpen, .ok⟩, ⟨.nvsGetStr (.replicate _ 0), ⟨.notFound, 0, .replicate _ 0⟩⟩,
    ⟨.nvsGetBlob (.replicate _ 0), ⟨.notFound, 0, .replicate _ 0⟩⟩,
    ⟨.fillRandom bridgeApPasswordBytes, .replicate _ 0⟩,
    ⟨.fillRandom bridgePairingSecretBytes, .replicate _ 0⟩,
    ⟨.nvsSetStr (generatePassword (.replicate _ 0)), ⟨.ok, true⟩⟩]

/-- The next one finds the password alone and makes both anew. -/
def madeLog : List Done :=
  [⟨.nvsOpen, .ok⟩,
    ⟨.nvsGetStr (.replicate _ 0), ⟨.ok, 21, generatePassword (.replicate _ 0)⟩⟩,
    ⟨.nvsGetBlob (.replicate _ 0), ⟨.notFound, 0, .replicate _ 0⟩⟩,
    ⟨.fillRandom bridgeApPasswordBytes, .replicate _ 1⟩,
    ⟨.fillRandom bridgePairingSecretBytes, .replicate _ 7⟩,
    ⟨.nvsSetStr (generatePassword (.replicate _ 1)), ⟨.ok, true⟩⟩,
    ⟨.nvsSetBlob (.replicate _ 7), ⟨.ok, true⟩⟩, ⟨.nvsCommit, .ok⟩, ⟨.nvsClose, ()⟩]

def madeCredentials : BridgeCredentials := ⟨generatePassword (.replicate _ 1), .replicate _ 7, true⟩

theorem act_setStr (random : Vector UInt8 bridgeApPasswordBytes) (w : World) :
    act (.nvsSetStr (generatePassword random)) ⟨.ok, true⟩ w =
      some ⟨{ w.flash with password := some (generatePassword random).toList },
        w.log ++ [⟨.nvsSetStr (generatePassword random), ⟨.ok, true⟩⟩]⟩ := by
  rw [← cString_generatePassword]
  rfl

theorem act_getStr (w : World) (hflash : w.flash.password = some password.toList)
    (buffer : Vector UInt8 (bridgeApPasswordBytes + 1)) :
    act (.nvsGetStr buffer) ⟨.ok, bridgeApPasswordBytes + 1, password⟩ w =
      some (w.after (.nvsGetStr buffer) ⟨.ok, bridgeApPasswordBytes + 1, password⟩) := by
  have hallowed : NvsRead.Allowed w.flash.password buffer
      ⟨.ok, bridgeApPasswordBytes + 1, password⟩ := by
    rw [hflash]
    constructor
    · exact Vector.length_toList.symm
    · simp
  rw [act, effect, if_pos hallowed]
  rfl

theorem cut_reaches : bridgeCredentialsLoadOrCreate.Reaches act ⟨{}, []⟩ none
    ⟨⟨some (generatePassword (.replicate _ 0)).toList, none⟩, cutLog⟩ :=
  .call (r := NvsErr.ok) rfl <|
  .call (r := (⟨.notFound, 0, .replicate _ 0⟩ : NvsRead _)) rfl <|
  .call (r := (⟨.notFound, 0, .replicate _ 0⟩ : NvsRead _)) rfl <|
  .call (r := Vector.replicate _ 0) rfl <| .call (r := Vector.replicate _ 0) rfl <|
  .call (act_setStr _ _) .cut

theorem made_reaches : bridgeCredentialsLoadOrCreate.Reaches act
    ⟨⟨some (generatePassword (.replicate _ 0)).toList, none⟩, []⟩ (some (.ok, madeCredentials))
    ⟨.holding madeCredentials.apPassword madeCredentials.pairingSecret, madeLog⟩ := by
  apply Prog.Reaches.call (r := NvsErr.ok) rfl
  apply Prog.Reaches.call (act_getStr _ rfl _)
  apply Prog.Reaches.call (r := (⟨.notFound, 0, .replicate _ 0⟩ : NvsRead _)) rfl
  apply Prog.Reaches.call (r := Vector.replicate _ 1) rfl
  apply Prog.Reaches.call (r := Vector.replicate _ 7) rfl
  apply Prog.Reaches.call (act_setStr _ _)
  apply Prog.Reaches.call (r := (⟨.ok, true⟩ : NvsWrite)) rfl
  apply Prog.Reaches.call (r := NvsErr.ok) rfl
  apply Prog.Reaches.call (r := ()) rfl
  exact .ret

/-- The pair of the call that was cut is not mixed with the one returned. -/
theorem credentials_created_once_cut :
    (∃ maker ∈ ([⟨madeLog, some (.ok, madeCredentials)⟩, ⟨cutLog, none⟩] : List Call),
      Drew maker.log madeCredentials.apPassword madeCredentials.pairingSecret) ∧
    ∀ earlier ∈ [(⟨cutLog, none⟩ : Call)], ∀ credentials,
      earlier.outcome = some (.ok, credentials) → ∀ d ∈ madeLog, writing d.op = false := by
  have h : History [⟨madeLog, some (.ok, madeCredentials)⟩, ⟨cutLog, none⟩]
      (.holding madeCredentials.apPassword madeCredentials.pairingSecret) :=
    .call (.call .empty cut_reaches) made_reaches
  obtain ⟨hdrawn, hkept, -, -⟩ := credentials_created_once h
  exact ⟨(hdrawn _ rfl).1, fun earlier hearlier credentials hok =>
    (hkept earlier hearlier credentials hok).1⟩

end Credentials
end FlipforgeBridge
