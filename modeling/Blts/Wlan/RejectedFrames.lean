import Blts.Wlan.Unwrapping

/-!
# Rejected frames

The recognisers store the group key and the counter themselves, after their last check.
`Rejected` lists what they and `process_eapol_frame` turn a frame down for; each reason is
about the frame and the state before it.
-/

namespace Blts.Wlan

/-- The RSN IE of the beacon, as long as its length byte says. -/
def AnnouncedRsnIe (ctx : WlanCtx) (ie : Bytes) : Prop :=
  ∃ beacon len, ctx.lastApRsnIe = some beacon ∧ beacon[1]? = some len ∧
    len.toNat + 2 ≤ beacon.length ∧ ie = beacon.take (len.toNat + 2)

/-- There is no group key of the right size among the elements. -/
def MissingGtk (frame : Bytes) : Prop :=
  ∀ gtk, (wpaSupplicantParseIes (keyData frame)).gtk = some gtk → gtk.length ≠ 18

/-- What `eapol_3_of_4_security_ok` turns a decrypted frame down for. -/
inductive InsecureMsg3 (ctx : WlanCtx) (frame : Bytes) (s : LoopState) : Prop
  | replayed (h : keyReplayCounter frame ≤ s.sm.counter)
  | changedNonce (h : keyNonce frame ≠ s.sm.aNonce)
  | rsnIeMismatch (ie : Bytes) (hannounced : AnnouncedRsnIe ctx ie)
      (h : (wpaSupplicantParseIes (keyData frame)).rsnIe.getD [] ≠ ie)
  | missingGtk (ie : Bytes) (hannounced : AnnouncedRsnIe ctx ie) (h : MissingGtk frame)

/-- What `eapol_group_hs_security_ok` turns a decrypted frame down for. -/
inductive InsecureGroupMsg1 (frame : Bytes) (s : LoopState) : Prop
  | replayed (h : keyReplayCounter frame ≤ s.sm.counter)
  | missingGtk (h : MissingGtk frame)

/-- What `is_4way_msg_3` turns a frame down for. -/
inductive BadMsg3 (c : Crypto) (ctx : WlanCtx) (f : RxFrame) (s : LoopState) : Prop
  | type (h : descType f.buf ≠ eapolKeyTypeRsn)
  | flags (h : keyInfoMsg3 (keyInfo f.buf) = false)
  | cutOff (h : f.len < sizeofKeyFrame + keyDataLen f.buf)
  | noElement (h : keyDataLen f.buf < sizeofRsnIeHdr)
  | mic (h : eapolKeyFrameMicOk c s.sm.ptk f = false)
  | unwrap (h : wpaDecryptEapolKeyData c s.sm.ptk f.buf = .ok none)
  | insecure (frame : Bytes)
      (hdec : wpaDecryptEapolKeyData c s.sm.ptk f.buf = .ok (some frame))
      (h : InsecureMsg3 ctx frame s)

/-- What `is_group_hs_msg_1` turns a frame down for. -/
inductive BadGroupMsg1 (c : Crypto) (f : RxFrame) (s : LoopState) : Prop
  | type (h : descType f.buf ≠ eapolKeyTypeRsn)
  | flags (h : keyInfoGroupMsg1 (keyInfo f.buf) = false)
  | nonce (h : isBitfieldZero (keyNonce f.buf) = false)
  | iv (h : isBitfieldZero (eapolKeyIv f.buf) = false)
  | mic (h : eapolKeyFrameMicOk c s.sm.ptk f = false)
  | unwrap (h : wpaDecryptEapolKeyData c s.sm.ptk f.buf = .ok none)
  | insecure (frame : Bytes)
      (hdec : wpaDecryptEapolKeyData c s.sm.ptk f.buf = .ok (some frame))
      (h : InsecureGroupMsg1 frame s)

/-- What `process_eapol_frame` turns a frame down for. -/
inductive Rejected (c : Crypto) (ctx : WlanCtx) (env : FrameEnv) (f : RxFrame)
    (s : LoopState) : Prop
  | tooShort (h : f.len < sizeofKeyFrame)
  | notAssociated (h : env.associated = false)
  | wrongState (hpreauth : s.eapolAuthState ≠ .preauth)
      (hsent : s.eapolAuthState ≠ .fourWay2Sent) (hready : s.eapolAuthState ≠ .groupHsReady)
  | msg1 (hstate : s.eapolAuthState = .preauth) (h : is4wayMsg1 f.buf = false)
  | msg3 (hstate : s.eapolAuthState = .fourWay2Sent) (h : BadMsg3 c ctx f s)
  | groupMsg1 (hstate : s.eapolAuthState = .groupHsReady) (hmsg1 : is4wayMsg1 f.buf = false)
      (h : BadGroupMsg1 c f s)

section

variable {c : Crypto} {ctx : WlanCtx} {env : FrameEnv} {f : RxFrame} {s : LoopState}

/-! ## The security checks -/

/-- A frame that is not secure is turned down. -/
theorem InsecureMsg3.refused {frame : Bytes} (h : InsecureMsg3 ctx frame s) :
    eapol3of4SecurityOk ctx frame s = .ok none := by
  unfold eapol3of4SecurityOk
  by_cases hreplay : keyReplayCounter frame ≤ s.sm.counter
  · rw [if_pos hreplay]
  rw [if_neg hreplay]
  by_cases hnonce : keyNonce frame ≠ s.sm.aNonce
  · rw [if_pos hnonce]
  rw [if_neg hnonce]
  obtain ⟨ie, ⟨beacon, len, hbeacon, hlen, hfits, hie⟩, hbad⟩ :
      ∃ ie, AnnouncedRsnIe ctx ie ∧
        ((wpaSupplicantParseIes (keyData frame)).rsnIe.getD [] = ie → MissingGtk frame) := by
    cases h with
    | replayed h => exact absurd h hreplay
    | changedNonce h => exact absurd h hnonce
    | rsnIeMismatch ie hannounced h => exact ⟨ie, hannounced, fun heq => absurd heq h⟩
    | missingGtk ie hannounced h => exact ⟨ie, hannounced, fun _ => h⟩
  rw [hbeacon]
  dsimp only
  rw [hlen]
  dsimp only
  rw [if_neg (Nat.not_lt.mpr hfits)]
  by_cases hlength : ((wpaSupplicantParseIes (keyData frame)).rsnIe.getD []).length ≠
      len.toNat + 2
  · rw [if_pos hlength]
  rw [if_neg hlength]
  by_cases hsame : beacon.take (len.toNat + 2) ≠
      (wpaSupplicantParseIes (keyData frame)).rsnIe.getD []
  · rw [if_pos hsame]
  rw [if_neg hsame]
  have hmissing := hbad (by rw [hie, not_not.mp hsame])
  cases hgtk : (wpaSupplicantParseIes (keyData frame)).gtk with
  | none => rfl
  | some gtk =>
      dsimp only
      rw [if_pos (hmissing gtk hgtk)]

/-- A frame that is turned down is not secure. -/
theorem insecureMsg3_of_refused {frame : Bytes}
    (h : eapol3of4SecurityOk ctx frame s = .ok none) : InsecureMsg3 ctx frame s := by
  unfold eapol3of4SecurityOk at h
  by_cases hreplay : keyReplayCounter frame ≤ s.sm.counter
  · exact .replayed hreplay
  rw [if_neg hreplay] at h
  by_cases hnonce : keyNonce frame ≠ s.sm.aNonce
  · exact .changedNonce hnonce
  rw [if_neg hnonce] at h
  cases hbeacon : ctx.lastApRsnIe with
  | none =>
      rw [hbeacon] at h
      cases h
  | some beacon =>
      rw [hbeacon] at h
      dsimp only at h
      cases hlen : beacon[1]? with
      | none =>
          rw [hlen] at h
          cases h
      | some len =>
          rw [hlen] at h
          dsimp only at h
          by_cases hshort : beacon.length < len.toNat + 2
          · rw [if_pos hshort] at h
            cases h
          rw [if_neg hshort] at h
          have hannounced : AnnouncedRsnIe ctx (beacon.take (len.toNat + 2)) :=
            ⟨beacon, len, hbeacon, hlen, Nat.not_lt.mp hshort, rfl⟩
          by_cases hmismatch : (wpaSupplicantParseIes (keyData frame)).rsnIe.getD [] ≠
              beacon.take (len.toNat + 2)
          · exact .rsnIeMismatch _ hannounced hmismatch
          refine .missingGtk _ hannounced fun gtk hgtk hlength => ?_
          have hie := not_not.mp hmismatch
          have hielen : ((wpaSupplicantParseIes (keyData frame)).rsnIe.getD []).length =
              len.toNat + 2 := by
            rw [hie, List.length_take]
            omega
          rw [if_neg (not_not_intro hielen), if_neg (not_not_intro hie.symm), hgtk] at h
          dsimp only at h
          rw [if_neg (not_not_intro hlength)] at h
          cases h

theorem insecureGroupMsg1_iff {frame : Bytes} :
    InsecureGroupMsg1 frame s ↔ eapolGroupHsSecurityOk frame s = none := by
  unfold eapolGroupHsSecurityOk
  by_cases hreplay : keyReplayCounter frame ≤ s.sm.counter
  · rw [if_pos hreplay]
    exact ⟨fun _ => rfl, fun _ => .replayed hreplay⟩
  rw [if_neg hreplay]
  dsimp only
  constructor
  · intro h
    cases h with
    | replayed h => exact absurd h hreplay
    | missingGtk h =>
        cases hgtk : (wpaSupplicantParseIes (keyData frame)).gtk with
        | none => rfl
        | some gtk =>
            dsimp only
            rw [if_pos (h gtk hgtk)]
  · intro h
    refine .missingGtk fun gtk hgtk hlength => ?_
    rw [hgtk] at h
    dsimp only at h
    rw [if_neg (not_not_intro hlength)] at h
    cases h

/-! ## The recognisers -/

/-- A frame that a recogniser has turned down gets no answer. -/
theorem answer_no {result : Int} {frame : Bytes} (h : result ≤ 0) (message : Outcome) :
    answer (.no result s frame) message = .quiet result s := by
  rcases Int.lt_or_eq_of_le h with hneg | rfl
  · have hresult : (Recognised.no result s frame).result = result := rfl
    rw [answer, hresult, if_neg (Int.ne_of_lt hneg), if_pos hneg]
    rfl
  · rfl

theorem BadMsg3.refused (h : BadMsg3 c ctx f s) : ∃ result frame, result ≤ 0 ∧
    is4wayMsg3 c ctx f s = .ok (.no result s frame) := by
  cases hchecked : unwrapsMsg3 c s.sm.ptk f with
  | false => exact ⟨0, f.buf, Int.le_refl 0, is4wayMsg3_of_not hchecked⟩
  | true =>
      rw [is4wayMsg3_of_unwraps hchecked]
      obtain ⟨hdesc, hinfo, hlong, hfull, hmic⟩ := unwrapsMsg3_iff.mp hchecked
      cases h with
      | type h => exact absurd hdesc h
      | flags h =>
          rw [hinfo] at h
          cases h
      | cutOff h => exact absurd h (Nat.not_lt.mpr hlong)
      | noElement h => exact absurd h (Nat.not_lt.mpr hfull)
      | mic h =>
          rw [hmic] at h
          cases h
      | unwrap h =>
          rw [h]
          exact ⟨0, f.buf, Int.le_refl 0, rfl⟩
      | insecure frame hdec h =>
          rw [hdec, ok_bind, afterUnwrapMsg3, h.refused]
          exact ⟨-1, frame, by decide, rfl⟩

theorem BadGroupMsg1.refused (h : BadGroupMsg1 c f s) : ∃ result frame, result ≤ 0 ∧
    isGroupHsMsg1 c f s = .ok (.no result s frame) := by
  cases hchecked : unwrapsGroupMsg1 c s.sm.ptk f with
  | false => exact ⟨0, f.buf, Int.le_refl 0, isGroupHsMsg1_of_not hchecked⟩
  | true =>
      rw [isGroupHsMsg1_of_unwraps hchecked]
      obtain ⟨hdesc, hinfo, hnonce, hiv, hmic⟩ := unwrapsGroupMsg1_iff.mp hchecked
      cases h with
      | type h => exact absurd hdesc h
      | flags h =>
          rw [hinfo] at h
          cases h
      | nonce h =>
          rw [hnonce] at h
          cases h
      | iv h =>
          rw [hiv] at h
          cases h
      | mic h =>
          rw [hmic] at h
          cases h
      | unwrap h =>
          rw [h]
          exact ⟨0, f.buf, Int.le_refl 0, rfl⟩
      | insecure frame hdec h =>
          rw [hdec, Except.map, afterUnwrapGroupMsg1, insecureGroupMsg1_iff.mp h]
          exact ⟨-1, frame, by decide, rfl⟩

/-- A frame that `is_4way_msg_3` turns down is bad for one of the reasons. -/
theorem badMsg3_of_refused {r : Recognised} (h : is4wayMsg3 c ctx f s = .ok r)
    (hresult : r.result ≤ 0) : BadMsg3 c ctx f s := by
  cases hchecked : unwrapsMsg3 c s.sm.ptk f with
  | false =>
      by_cases hdesc : descType f.buf ≠ eapolKeyTypeRsn
      · exact .type hdesc
      by_cases hshort : f.len < sizeofKeyFrame + keyDataLen f.buf
      · exact .cutOff hshort
      by_cases hempty : keyDataLen f.buf < sizeofRsnIeHdr
      · exact .noElement hempty
      cases hinfo : keyInfoMsg3 (keyInfo f.buf) with
      | false => exact .flags hinfo
      | true =>
          cases hmic : eapolKeyFrameMicOk c s.sm.ptk f with
          | false => exact .mic hmic
          | true =>
              have hpassed : unwrapsMsg3 c s.sm.ptk f = true :=
                unwrapsMsg3_iff.mpr ⟨not_not.mp hdesc, hinfo, Nat.not_lt.mp hshort,
                  Nat.not_lt.mp hempty, hmic⟩
              rw [hchecked] at hpassed
              cases hpassed
  | true =>
      rw [is4wayMsg3_of_unwraps hchecked] at h
      obtain ⟨decrypted, hdec, h⟩ := exists_of_bind_eq_ok h
      cases decrypted with
      | none => exact .unwrap hdec
      | some frame =>
          obtain ⟨checked, hok, h⟩ := exists_of_bind_eq_ok h
          cases checked with
          | none => exact .insecure frame hdec (insecureMsg3_of_refused hok)
          | some checked =>
              obtain ⟨s', ies⟩ := checked
              cases h
              have hone : (1 : Int) ≤ 0 := hresult
              exact absurd hone (by decide)

/-- A frame that `is_group_hs_msg_1` turns down is bad for one of the reasons. -/
theorem badGroupMsg1_of_refused {r : Recognised} (h : isGroupHsMsg1 c f s = .ok r)
    (hresult : r.result ≤ 0) : BadGroupMsg1 c f s := by
  cases hchecked : unwrapsGroupMsg1 c s.sm.ptk f with
  | false =>
      by_cases hdesc : descType f.buf ≠ eapolKeyTypeRsn
      · exact .type hdesc
      cases hinfo : keyInfoGroupMsg1 (keyInfo f.buf) with
      | false => exact .flags hinfo
      | true =>
          cases hnonce : isBitfieldZero (keyNonce f.buf) with
          | false => exact .nonce hnonce
          | true =>
              cases hiv : isBitfieldZero (eapolKeyIv f.buf) with
              | false => exact .iv hiv
              | true =>
                  refine .mic ?_
                  by_contra hmic
                  have hpassed : unwrapsGroupMsg1 c s.sm.ptk f = true :=
                    unwrapsGroupMsg1_iff.mpr ⟨not_not.mp hdesc, hinfo, hnonce, hiv,
                      by simpa using hmic⟩
                  rw [hchecked] at hpassed
                  cases hpassed
  | true =>
      rw [isGroupHsMsg1_of_unwraps hchecked] at h
      cases hdec : wpaDecryptEapolKeyData c s.sm.ptk f.buf with
      | error fault =>
          rw [hdec] at h
          cases h
      | ok decrypted =>
          rw [hdec] at h
          have hr := Except.ok.inj h
          cases decrypted with
          | none => exact .unwrap hdec
          | some frame =>
              cases hok : eapolGroupHsSecurityOk frame s with
              | none => exact .insecure frame hdec (insecureGroupMsg1_iff.mpr hok)
              | some checked =>
                  obtain ⟨s', ies⟩ := checked
                  rw [afterUnwrapGroupMsg1, hok] at hr
                  rw [← hr] at hresult
                  have hone : (1 : Int) ≤ 0 := hresult
                  exact absurd hone (by decide)

/-! ## Whole frames -/

/-- **A rejected frame** leaves no trace. -/
theorem Rejected.unchanged (h : Rejected c ctx env f s) :
    ∃ ret, processEapolFrame c ctx env f s = .ok (.quiet ret s) := by
  by_cases hshort : f.len < sizeofKeyFrame
  · exact ⟨errInvalid, if_pos hshort⟩
  have hlength := Nat.not_lt.mp hshort
  cases hassociated : env.associated with
  | false =>
      unfold processEapolFrame
      rw [if_neg hshort, hassociated]
      exact ⟨0, rfl⟩
  | true =>
      cases h with
      | tooShort h => exact absurd h hshort
      | notAssociated h =>
          rw [hassociated] at h
          cases h
      | wrongState hpreauth hsent hready =>
          unfold processEapolFrame
          rw [if_neg hshort, hassociated]
          cases hstate : s.eapolAuthState with
          | preauth => exact absurd hstate hpreauth
          | fourWay2Sent => exact absurd hstate hsent
          | groupHsReady => exact absurd hstate hready
          | fourWay1Rcvd | fourWay3Rcvd | fourWayComplete => exact ⟨0, rfl⟩
          | groupHs1Rcvd | groupHsComplete | authenticated | deauthenticated =>
              exact ⟨-1, rfl⟩
      | msg1 hstate h =>
          unfold processEapolFrame
          rw [if_neg hshort, hassociated, hstate, h]
          exact ⟨0, rfl⟩
      | msg3 hstate h =>
          obtain ⟨result, frame, hle, hno⟩ := h.refused
          rw [processEapolFrame_of_fourWay2Sent hlength hassociated hstate, hno, Except.map,
            answerMsg3, answer_no hle]
          exact ⟨result, rfl⟩
      | groupMsg1 hstate hmsg1 h =>
          obtain ⟨result, frame, hle, hno⟩ := h.refused
          rw [processEapolFrame_of_groupHsReady hlength hassociated hstate hmsg1, hno,
            Except.map, answerGroupMsg1, answer_no hle]
          exact ⟨result, rfl⟩

/-- A frame that has been processed is rejected, or taken for a message. -/
theorem rejected_of_not_taken {o : Outcome} (h : processEapolFrame c ctx env f s = .ok o)
    (hnot : takenAs c ctx env f s = none) : Rejected c ctx env f s := by
  by_cases hshort : f.len < sizeofKeyFrame
  · exact .tooShort hshort
  cases hassociated : env.associated with
  | false => exact .notAssociated hassociated
  | true =>
      unfold takenAs at hnot
      rw [if_neg hshort, hassociated, if_neg (by decide)] at hnot
      cases hstate : s.eapolAuthState with
      | preauth =>
          refine .msg1 hstate ?_
          rw [hstate] at hnot
          cases hmsg1 : is4wayMsg1 f.buf with
          | false => rfl
          | true =>
              rw [hmsg1] at hnot
              cases hnot
      | fourWay2Sent =>
          refine .msg3 hstate ?_
          rw [processEapolFrame_of_fourWay2Sent (Nat.not_lt.mp hshort) hassociated hstate] at h
          rw [hstate] at hnot
          cases hr : is4wayMsg3 c ctx f s with
          | error fault =>
              rw [hr] at h
              cases h
          | ok r =>
              refine badMsg3_of_refused hr ?_
              by_contra hpos
              have hany : (Except.ok r : Except Fault Recognised).toOption.any
                  (fun r => 0 < r.result) = true := decide_eq_true (Int.not_le.mp hpos)
              rw [hr] at hnot
              dsimp only at hnot
              rw [if_pos hany] at hnot
              cases hnot
      | groupHsReady =>
          rw [hstate] at hnot
          cases hmsg1 : is4wayMsg1 f.buf with
          | true =>
              rw [hmsg1] at hnot
              cases hnot
          | false =>
              refine .groupMsg1 hstate hmsg1 ?_
              rw [processEapolFrame_of_groupHsReady (Nat.not_lt.mp hshort) hassociated hstate
                hmsg1] at h
              cases hr : isGroupHsMsg1 c f s with
              | error fault =>
                  rw [hr] at h
                  cases h
              | ok r =>
                  refine badGroupMsg1_of_refused hr ?_
                  by_contra hpos
                  have hany : (Except.ok r : Except Fault Recognised).toOption.any
                      (fun r => 0 < r.result) = true := decide_eq_true (Int.not_le.mp hpos)
                  rw [hmsg1, hr] at hnot
                  dsimp only at hnot
                  rw [if_neg Bool.false_ne_true, if_pos hany] at hnot
                  cases hnot
      | fourWay1Rcvd | fourWay3Rcvd | fourWayComplete | groupHs1Rcvd | groupHsComplete
      | authenticated | deauthenticated =>
          refine .wrongState ?_ ?_ ?_ <;> rw [hstate] <;> intro h <;> cases h

end

/--
**Rejected frames.**  In every state a frame that is rejected, for whatever reason, leaves
the whole state as it was and makes no call; and a frame that comes to an end and is not
taken for a message has been rejected.
-/
theorem rejected_unchanged (c : Crypto) (ctx : WlanCtx) (env : FrameEnv) (f : RxFrame)
    (s : LoopState) :
    (Rejected c ctx env f s → ∃ ret, processEapolFrame c ctx env f s = .ok (.quiet ret s)) ∧
      ∀ o, processEapolFrame c ctx env f s = .ok o → takenAs c ctx env f s = none →
        Rejected c ctx env f s :=
  ⟨Rejected.unchanged, fun _ h => rejected_of_not_taken h⟩

end Blts.Wlan
