import Blts.Wlan.GroupRetries

/-!
# Frames whose key data is unwrapped

Both recognisers check the header and the MIC, then unwrap the key data in place, and look
at the rest of the frame afterwards.  `is_4way_msg_3` alone compares the length of the key
data with that of the frame.
-/

namespace Blts.Wlan

/-- What `is_4way_msg_3` checks before it unwraps the key data. -/
def unwrapsMsg3 (c : Crypto) (ptk : Bytes) (f : RxFrame) : Bool :=
  descType f.buf == eapolKeyTypeRsn && keyInfoMsg3 (keyInfo f.buf) &&
    sizeofKeyFrame + keyDataLen f.buf ≤ f.len && sizeofRsnIeHdr ≤ keyDataLen f.buf &&
      eapolKeyFrameMicOk c ptk f

/-- What `is_group_hs_msg_1` checks before it unwraps the key data. -/
def unwrapsGroupMsg1 (c : Crypto) (ptk : Bytes) (f : RxFrame) : Bool :=
  descType f.buf == eapolKeyTypeRsn && keyInfoGroupMsg1 (keyInfo f.buf) &&
    isBitfieldZero (keyNonce f.buf) && isBitfieldZero (eapolKeyIv f.buf) &&
      eapolKeyFrameMicOk c ptk f

theorem unwrapsMsg3_iff {c : Crypto} {ptk : Bytes} {f : RxFrame} :
    unwrapsMsg3 c ptk f = true ↔ descType f.buf = eapolKeyTypeRsn ∧
      keyInfoMsg3 (keyInfo f.buf) = true ∧ sizeofKeyFrame + keyDataLen f.buf ≤ f.len ∧
        sizeofRsnIeHdr ≤ keyDataLen f.buf ∧ eapolKeyFrameMicOk c ptk f = true := by
  simp only [unwrapsMsg3, Bool.and_eq_true, beq_iff_eq, decide_eq_true_eq, and_assoc]

theorem unwrapsGroupMsg1_iff {c : Crypto} {ptk : Bytes} {f : RxFrame} :
    unwrapsGroupMsg1 c ptk f = true ↔ descType f.buf = eapolKeyTypeRsn ∧
      keyInfoGroupMsg1 (keyInfo f.buf) = true ∧ isBitfieldZero (keyNonce f.buf) = true ∧
        isBitfieldZero (eapolKeyIv f.buf) = true ∧ eapolKeyFrameMicOk c ptk f = true := by
  simp only [unwrapsGroupMsg1, Bool.and_eq_true, beq_iff_eq, and_assoc]

/-- `is_4way_msg_3` after the key data has been unwrapped. -/
def afterUnwrapMsg3 (ctx : WlanCtx) (f : RxFrame) (s : LoopState) :
    Option Bytes → Except Fault Recognised
  | none => .ok (.no 0 s f.buf)
  | some frame => do
      match ← eapol3of4SecurityOk ctx frame s with
      | none => .ok (.no (-1) s frame)
      | some (s, ies) => .ok { result := 1, state := s, frame := frame, ies := ies }

/-- `is_group_hs_msg_1` after the key data has been unwrapped. -/
def afterUnwrapGroupMsg1 (f : RxFrame) (s : LoopState) : Option Bytes → Recognised
  | none => .no 0 s f.buf
  | some frame =>
      match eapolGroupHsSecurityOk frame s with
      | none => .no (-1) s frame
      | some (s, ies) => { result := 1, state := s, frame := frame, ies := ies }

/-- What `process_eapol_frame` does with the result of a recogniser. -/
def answer (r : Recognised) (message : Outcome) : Outcome :=
  if r.result = 0 then .quiet 0 r.state
  else if r.result < 0 then .quiet r.result r.state
  else message

/-- What `process_eapol_frame` does after `is_4way_msg_3`. -/
def answerMsg3 (c : Crypto) (env : FrameEnv) (r : Recognised) : Outcome :=
  answer r ((eapolAuthStateChange env .fourWay3Rcvd r.state).andThen
    (processEapol4wayMsg3 c env r.frame r.ies))

/-- What `process_eapol_frame` does after `is_group_hs_msg_1`. -/
def answerGroupMsg1 (c : Crypto) (env : FrameEnv) (r : Recognised) : Outcome :=
  answer r ((eapolAuthStateChange env .groupHs1Rcvd r.state).andThen
    (processEapolGroupHsMsg1 c env r.frame r.ies))

/-- The two early returns of `process_eapol_frame`. -/
theorem bind_answer (recognised : Except Fault Recognised) (message : Recognised → Outcome) :
    (recognised >>= fun r =>
      if r.result = 0 then pure (.quiet 0 r.state)
      else if r.result < 0 then pure (.quiet r.result r.state)
      else pure (message r)) = recognised.map fun r => answer r (message r) := by
  cases recognised with
  | error fault => rfl
  | ok r =>
      rw [ok_bind, Except.map, answer]
      by_cases hzero : r.result = 0
      · rw [if_pos hzero, if_pos hzero]
        rfl
      · rw [if_neg hzero, if_neg hzero]
        by_cases hneg : r.result < 0
        · rw [if_pos hneg, if_pos hneg]
          rfl
        · rw [if_neg hneg, if_neg hneg]
          rfl

section

variable {c : Crypto} {ctx : WlanCtx} {env : FrameEnv} {f : RxFrame} {s : LoopState}

theorem processEapolFrame_of_fourWay2Sent (hlength : sizeofKeyFrame ≤ f.len)
    (hassociated : env.associated = true) (hstate : s.eapolAuthState = .fourWay2Sent) :
    processEapolFrame c ctx env f s = (is4wayMsg3 c ctx f s).map (answerMsg3 c env) := by
  unfold processEapolFrame
  rw [if_neg (Nat.not_lt.mpr hlength), hassociated, hstate]
  exact bind_answer _ _

theorem processEapolFrame_of_groupHsReady (hlength : sizeofKeyFrame ≤ f.len)
    (hassociated : env.associated = true) (hstate : s.eapolAuthState = .groupHsReady)
    (hmsg1 : is4wayMsg1 f.buf = false) :
    processEapolFrame c ctx env f s = (isGroupHsMsg1 c f s).map (answerGroupMsg1 c env) := by
  unfold processEapolFrame
  rw [if_neg (Nat.not_lt.mpr hlength), hassociated, hstate, hmsg1]
  exact bind_answer _ _

/-- A frame that fails a check before the unwrapping is no message 3. -/
theorem is4wayMsg3_of_not (h : unwrapsMsg3 c s.sm.ptk f = false) :
    is4wayMsg3 c ctx f s = .ok (.no 0 s f.buf) := by
  simp only [is4wayMsg3, bind, Except.bind, pure, Except.pure]
  by_cases hdesc : descType f.buf ≠ eapolKeyTypeRsn
  · rw [if_pos hdesc]
  rw [if_neg hdesc]
  by_cases hinfo : (!keyInfoMsg3 (keyInfo f.buf)) = true
  · rw [if_pos hinfo]
  rw [if_neg hinfo]
  by_cases hshort : f.len < sizeofKeyFrame + keyDataLen f.buf
  · rw [if_pos hshort]
  rw [if_neg hshort]
  by_cases hempty : keyDataLen f.buf < sizeofRsnIeHdr
  · rw [if_pos hempty]
  rw [if_neg hempty]
  by_cases hmic : (!eapolKeyFrameMicOk c s.sm.ptk f) = true
  · rw [if_pos hmic]
  have hpassed : unwrapsMsg3 c s.sm.ptk f = true :=
    unwrapsMsg3_iff.mpr ⟨not_not.mp hdesc, by simpa using hinfo, Nat.not_lt.mp hshort,
      Nat.not_lt.mp hempty, by simpa using hmic⟩
  rw [hpassed] at h
  cases h

theorem is4wayMsg3_of_unwraps (h : unwrapsMsg3 c s.sm.ptk f = true) : is4wayMsg3 c ctx f s =
    wpaDecryptEapolKeyData c s.sm.ptk f.buf >>= afterUnwrapMsg3 ctx f s := by
  obtain ⟨hdesc, hinfo, hlong, hfull, hmic⟩ := unwrapsMsg3_iff.mp h
  simp only [is4wayMsg3, hdesc, hinfo, hmic, if_neg (Nat.not_lt.mpr hlong),
    if_neg (Nat.not_lt.mpr hfull), bind, Except.bind, pure, Except.pure, ne_eq,
    not_true_eq_false, if_false, Bool.not_true, Bool.false_eq_true]
  cases wpaDecryptEapolKeyData c s.sm.ptk f.buf with
  | error fault => rfl
  | ok decrypted =>
      cases decrypted with
      | none => rfl
      | some frame => rfl

/-- A frame that fails a check before the unwrapping is no group message 1. -/
theorem isGroupHsMsg1_of_not (h : unwrapsGroupMsg1 c s.sm.ptk f = false) :
    isGroupHsMsg1 c f s = .ok (.no 0 s f.buf) := by
  simp only [isGroupHsMsg1, bind, Except.bind, pure, Except.pure]
  by_cases hdesc : descType f.buf ≠ eapolKeyTypeRsn
  · rw [if_pos hdesc]
  rw [if_neg hdesc]
  by_cases hinfo : (!keyInfoGroupMsg1 (keyInfo f.buf)) = true
  · rw [if_pos hinfo]
  rw [if_neg hinfo]
  by_cases hnonce : (!isBitfieldZero (keyNonce f.buf)) = true
  · rw [if_pos hnonce]
  rw [if_neg hnonce]
  by_cases hiv : (!isBitfieldZero (eapolKeyIv f.buf)) = true
  · rw [if_pos hiv]
  rw [if_neg hiv]
  by_cases hmic : (!eapolKeyFrameMicOk c s.sm.ptk f) = true
  · rw [if_pos hmic]
  have hpassed : unwrapsGroupMsg1 c s.sm.ptk f = true :=
    unwrapsGroupMsg1_iff.mpr ⟨not_not.mp hdesc, by simpa using hinfo, by simpa using hnonce,
      by simpa using hiv, by simpa using hmic⟩
  rw [hpassed] at h
  cases h

theorem isGroupHsMsg1_of_unwraps (h : unwrapsGroupMsg1 c s.sm.ptk f = true) :
    isGroupHsMsg1 c f s =
      (wpaDecryptEapolKeyData c s.sm.ptk f.buf).map (afterUnwrapGroupMsg1 f s) := by
  obtain ⟨hdesc, hinfo, hnonce, hiv, hmic⟩ := unwrapsGroupMsg1_iff.mp h
  simp only [isGroupHsMsg1, hdesc, hinfo, hnonce, hiv, hmic, bind, Except.bind, pure,
    Except.pure, ne_eq, not_true_eq_false, if_false, Bool.not_true, Bool.false_eq_true]
  cases wpaDecryptEapolKeyData c s.sm.ptk f.buf with
  | error fault => rfl
  | ok decrypted =>
      cases decrypted with
      | none => rfl
      | some frame =>
          cases hok : eapolGroupHsSecurityOk frame s with
          | none => simp [Except.map, afterUnwrapGroupMsg1, hok]
          | some checked => simp [Except.map, afterUnwrapGroupMsg1, hok]

end

/-! ## What is unwrapped -/

/-- As many bytes as `aes_unwrap` reads. -/
def cipherLen (keydatalen : Nat) : Nat :=
  ((keydatalen + 65536 - 8) % 65536 / 8 + 1) * 8

theorem keyDataLen_lt (buf : Bytes) : keyDataLen buf < 65536 := by
  have hlength : (field buf 97 2).length ≤ 2 := by
    rw [field, List.length_take]
    exact Nat.min_le_left _ _
  calc keyDataLen buf < 256 ^ (field buf 97 2).length := beNat_lt _
    _ ≤ 256 ^ 2 := Nat.pow_le_pow_right (by decide) hlength
    _ = 65536 := by decide

theorem cipherLen_eq {keydatalen : Nat} (hmod : keydatalen % 8 = 0) (hle : 8 ≤ keydatalen)
    (hlt : keydatalen < 65536) : cipherLen keydatalen = keydatalen := by
  unfold cipherLen
  omega

/-- Less than eight bytes of key data wrap around. -/
theorem cipherLen_zero : cipherLen 0 = 65536 := by
  decide

/-- What has been written at an offset is there. -/
theorem field_overwrite_self {buf src : Bytes} {off : Nat} (h : off ≤ buf.length) :
    field (overwrite buf off src) off src.length = src := by
  have htake : (buf.take off).length = off := by
    rw [List.length_take]
    omega
  rw [field, overwrite, List.append_assoc, List.drop_append_of_le_length (by omega),
    List.drop_of_length_le (by omega), List.nil_append,
    List.take_append_of_le_length (Nat.le_refl _), List.take_length]

theorem length_overwrite {buf src : Bytes} {off : Nat} (h : off + src.length ≤ buf.length) :
    (overwrite buf off src).length = buf.length := by
  rw [overwrite, List.length_append, List.length_append, List.length_take, List.length_drop]
  omega

theorem beNat_be16 {n : Nat} (h : n < 65536) : beNat (be16 n) = n := by
  have hhigh : (UInt8.ofNat (n / 256)).toNat = n / 256 := by
    rw [UInt8.toNat_ofNat']
    omega
  have hlow : (UInt8.ofNat n).toNat = n % 256 := UInt8.toNat_ofNat'
  simp only [beNat, be16, List.foldl_cons, List.foldl_nil, hhigh, hlow]
  omega

section

variable {c : Crypto} {ptk buf : Bytes}

/-- Where the bytes that are read are in the buffer, the unwrapping comes to an end. -/
theorem wpaDecryptEapolKeyData_eq (hmod : keyDataLen buf % 8 = 0)
    (hfits : sizeofKeyFrame + cipherLen (keyDataLen buf) ≤ buf.length) :
    wpaDecryptEapolKeyData c ptk buf = .ok
      ((c.aesUnwrap (ptkKek ptk) (field buf sizeofKeyFrame (cipherLen (keyDataLen buf)))).map
        fun plain => overwrite (overwrite buf sizeofKeyFrame plain) 97
          (be16 ((keyDataLen buf + 65536 - 8) % 65536))) := by
  unfold wpaDecryptEapolKeyData
  dsimp only
  unfold cipherLen at hfits ⊢
  rw [if_neg (fun h => h hmod), if_neg (Nat.not_lt.mpr hfits)]
  cases c.aesUnwrap (ptkKek ptk) (field buf sizeofKeyFrame
    (((keyDataLen buf + 65536 - 8) % 65536 / 8 + 1) * 8)) with
  | none => rfl
  | some plain => rfl

/-- Where they are not, the code reads past the buffer. -/
theorem wpaDecryptEapolKeyData_outOfBounds (hmod : keyDataLen buf % 8 = 0)
    (hshort : buf.length < sizeofKeyFrame + cipherLen (keyDataLen buf)) :
    wpaDecryptEapolKeyData c ptk buf = .error .outOfBounds := by
  unfold wpaDecryptEapolKeyData
  dsimp only
  unfold cipherLen at hshort
  rw [if_neg (fun h => h hmod), if_pos hshort]

theorem wpaDecryptEapolKeyData_of_mod (hmod : keyDataLen buf % 8 ≠ 0) :
    wpaDecryptEapolKeyData c ptk buf = .ok none := by
  unfold wpaDecryptEapolKeyData
  exact if_pos hmod

theorem mod_of_unwrapped (h : wpaDecryptEapolKeyData c ptk buf ≠ .ok none) :
    keyDataLen buf % 8 = 0 := by
  by_contra hmod
  exact h (wpaDecryptEapolKeyData_of_mod hmod)

theorem mod_of_decrypted {frame : Bytes}
    (h : wpaDecryptEapolKeyData c ptk buf = .ok (some frame)) : keyDataLen buf % 8 = 0 := by
  have hne : wpaDecryptEapolKeyData c ptk buf ≠ .ok none := by
    rw [h]
    exact fun hnone => by cases hnone
  exact mod_of_unwrapped hne

/-- **The key data of an unwrapped frame** is eight bytes shorter. -/
theorem keyDataLen_decrypted {frame : Bytes} (hle : 8 ≤ keyDataLen buf)
    (h : wpaDecryptEapolKeyData c ptk buf = .ok (some frame)) :
    keyDataLen frame + 8 = keyDataLen buf := by
  have hlt := keyDataLen_lt buf
  have hmod := mod_of_decrypted h
  by_cases hshort : buf.length < sizeofKeyFrame + cipherLen (keyDataLen buf)
  · rw [wpaDecryptEapolKeyData_outOfBounds hmod hshort] at h
    cases h
  · rw [wpaDecryptEapolKeyData_eq hmod (Nat.not_lt.mp hshort)] at h
    obtain ⟨plain, hplain, hframe⟩ := Option.map_eq_some_iff.mp (Except.ok.inj h)
    rw [cipherLen_eq hmod hle hlt] at hshort hplain
    unfold sizeofKeyFrame at hshort hplain hframe
    have hcipher : (field buf 99 (keyDataLen buf)).length = keyDataLen buf := by
      rw [field, List.length_take, List.length_drop]
      omega
    have hlength := c.unwrap_length _ _ _ hplain
    rw [hcipher] at hlength
    have hinner : (overwrite buf 99 plain).length = buf.length :=
      length_overwrite (by omega)
    have hfield : field frame 97 2 = be16 ((keyDataLen buf + 65536 - 8) % 65536) := by
      rw [← hframe]
      exact field_overwrite_self (by omega)
    have hframeLen : keyDataLen frame = (keyDataLen buf + 65536 - 8) % 65536 := by
      rw [keyDataLen, hfield, beNat_be16 (Nat.mod_lt _ (by decide))]
    omega

end

end Blts.Wlan
