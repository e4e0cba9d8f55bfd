import Blts.Wlan.Unwrapping

/-!
# What comes after the packet body

The EAPOL header says how long the packet body is.  `process_eapol_frame` never looks at
that length: it goes by the number of bytes that have been received, padding included.
-/

namespace Blts.Wlan

/-- `packet_body_len`. -/
def packetBodyLen (buf : Bytes) : Nat := beNat (field buf 2 2)

/-- The end of the packet body, after the four bytes of the EAPOL header. -/
def bodyEnd (buf : Bytes) : Nat := 4 + packetBodyLen buf

/-- Two received buffers with the same EAPOL header and packet body, both complete. -/
structure SameBody (f g : RxFrame) : Prop where
  left : bodyEnd f.buf ≤ f.len
  right : bodyEnd f.buf ≤ g.len
  bytes : f.buf.take (bodyEnd f.buf) = g.buf.take (bodyEnd f.buf)

/-- Whatever comes after the packet body, the result, the state and the calls are the same. -/
def IgnoresTrailer (c : Crypto) (ctx : WlanCtx) (env : FrameEnv) (f : RxFrame)
    (s : LoopState) : Prop :=
  ∀ g, SameBody f g → processEapolFrame c ctx env f s = processEapolFrame c ctx env g s

/-- The frame passes the checks before the unwrapping, and the unwrapping does not fail. -/
inductive Unwrapped (c : Crypto) (env : FrameEnv) (f : RxFrame) (s : LoopState) : Prop
  | msg3 (hlength : sizeofKeyFrame ≤ f.len) (hassociated : env.associated = true)
      (hstate : s.eapolAuthState = .fourWay2Sent)
      (hchecked : unwrapsMsg3 c s.sm.ptk f = true)
      (hunwrapped : wpaDecryptEapolKeyData c s.sm.ptk f.buf ≠ .ok none)
  | groupMsg1 (hlength : sizeofKeyFrame ≤ f.len) (hassociated : env.associated = true)
      (hstate : s.eapolAuthState = .groupHsReady) (hmsg1 : is4wayMsg1 f.buf = false)
      (hchecked : unwrapsGroupMsg1 c s.sm.ptk f = true)
      (hunwrapped : wpaDecryptEapolKeyData c s.sm.ptk f.buf ≠ .ok none)

/-- The key data, eight bytes at least, is part of the packet body. -/
def KeyDataInBody (buf : Bytes) : Prop :=
  8 ≤ keyDataLen buf ∧ sizeofKeyFrame + keyDataLen buf ≤ bodyEnd buf

/-! ## Buffers with the same beginning -/

theorem field_eq_of_take {a b : Bytes} {m o l : Nat} (h : a.take m = b.take m)
    (hol : o + l ≤ m) : field a o l = field b o l := by
  have hfield (buf : Bytes) : field buf o l = ((buf.take m).drop o).take l := by
    rw [field, List.drop_take, List.take_take, Nat.min_eq_left (by omega)]
  rw [hfield, h, ← hfield]

theorem take_overwrite {a b src : Bytes} {m off : Nat} (h : a.take m = b.take m)
    (hsrc : off + src.length ≤ m) (ha : m ≤ a.length) (hb : m ≤ b.length) :
    (overwrite a off src).take m = (overwrite b off src).take m := by
  have hbefore : a.take off = b.take off := by
    have htake (buf : Bytes) : buf.take off = (buf.take m).take off := by
      rw [List.take_take, Nat.min_eq_left (by omega)]
    rw [htake, h, ← htake]
  have hafter : (a.drop (off + src.length)).take (m - (off + src.length)) =
      (b.drop (off + src.length)).take (m - (off + src.length)) := by
    rw [← List.drop_take, h, List.drop_take]
  have hsplit (buf : Bytes) (hbuf : m ≤ buf.length) : (overwrite buf off src).take m =
      buf.take off ++ src ++ (buf.drop (off + src.length)).take (m - (off + src.length)) := by
    have hlength : (buf.take off ++ src).length = off + src.length := by
      rw [List.length_append, List.length_take]
      omega
    rw [overwrite, List.take_append, hlength, List.take_of_length_le (by omega)]
  rw [hsplit a ha, hsplit b hb, hbefore, hafter]

/-- Buffers with the same header of an EAPOL-Key frame. -/
def SameHeader (a b : Bytes) : Prop :=
  a.take sizeofKeyFrame = b.take sizeofKeyFrame

namespace SameHeader

variable {a b : Bytes}

theorem field (h : SameHeader a b) {o l : Nat} (hol : o + l ≤ sizeofKeyFrame) :
    Wlan.field a o l = Wlan.field b o l :=
  field_eq_of_take h hol

theorem of_take {m : Nat} (h : a.take m = b.take m) (hle : sizeofKeyFrame ≤ m) :
    SameHeader a b := by
  have htake (buf : Bytes) : buf.take sizeofKeyFrame = (buf.take m).take sizeofKeyFrame := by
    rw [List.take_take, Nat.min_eq_left hle]
  rw [SameHeader, htake, h, ← htake]

theorem descType (h : SameHeader a b) : Wlan.descType a = Wlan.descType b := by
  rw [Wlan.descType, h.field (by decide), Wlan.descType]

theorem keyInfo (h : SameHeader a b) : Wlan.keyInfo a = Wlan.keyInfo b := by
  rw [Wlan.keyInfo, h.field (by decide), Wlan.keyInfo]

theorem keyReplayCounter (h : SameHeader a b) :
    Wlan.keyReplayCounter a = Wlan.keyReplayCounter b := by
  rw [Wlan.keyReplayCounter, h.field (by decide), Wlan.keyReplayCounter]

theorem keyNonce (h : SameHeader a b) : Wlan.keyNonce a = Wlan.keyNonce b :=
  h.field (by decide)

theorem eapolKeyIv (h : SameHeader a b) : Wlan.eapolKeyIv a = Wlan.eapolKeyIv b :=
  h.field (by decide)

theorem keyRsc (h : SameHeader a b) : Wlan.keyRsc a = Wlan.keyRsc b :=
  h.field (by decide)

theorem keyMic (h : SameHeader a b) : Wlan.keyMic a = Wlan.keyMic b :=
  h.field (by decide)

theorem keyDataLen (h : SameHeader a b) : Wlan.keyDataLen a = Wlan.keyDataLen b := by
  rw [Wlan.keyDataLen, h.field (by decide), Wlan.keyDataLen]

theorem is4wayMsg1 (h : SameHeader a b) : Wlan.is4wayMsg1 a = Wlan.is4wayMsg1 b := by
  unfold Wlan.is4wayMsg1
  rw [h.descType, h.keyInfo, h.eapolKeyIv, h.keyRsc, h.keyMic]

end SameHeader

/-! ## Messages of the same header -/

section

variable {c : Crypto} {ctx : WlanCtx} {env : FrameEnv}

theorem processEapol4wayMsg1_congr {a b : Bytes} (h : SameHeader a b) :
    processEapol4wayMsg1 c ctx env a = processEapol4wayMsg1 c ctx env b := by
  funext s
  unfold processEapol4wayMsg1 fourWayMsg2
  rw [h.keyReplayCounter, h.keyNonce, show a.take sizeofKeyFrame = b.take sizeofKeyFrame from h]

theorem processEapol4wayMsg3_congr {a b : Bytes} (h : SameHeader a b) (ies : WpaEapolIeParse) :
    processEapol4wayMsg3 c env a ies = processEapol4wayMsg3 c env b ies := by
  funext s
  unfold processEapol4wayMsg3 eapolSetPairwiseGtk
  rw [h.keyReplayCounter, h.keyInfo, h.keyRsc]

theorem processEapolGroupHsMsg1_congr {a b : Bytes} (h : SameHeader a b)
    (ies : WpaEapolIeParse) :
    processEapolGroupHsMsg1 c env a ies = processEapolGroupHsMsg1 c env b ies := by
  funext s
  unfold processEapolGroupHsMsg1 eapolSetPairwiseGtk
  rw [h.keyRsc]

/-- Buffers that agree on the key data are unwrapped to buffers that agree as far. -/
theorem wpaDecryptEapolKeyData_congr {ptk a b frame : Bytes} {m : Nat}
    (h : a.take m = b.take m) (ha : m ≤ a.length) (hb : m ≤ b.length)
    (hle : 8 ≤ keyDataLen a) (hdata : sizeofKeyFrame + keyDataLen a ≤ m)
    (hdec : wpaDecryptEapolKeyData c ptk a = .ok (some frame)) :
    ∃ frame', wpaDecryptEapolKeyData c ptk b = .ok (some frame') ∧
      frame.take m = frame'.take m ∧ sizeofKeyFrame + keyDataLen frame ≤ m := by
  have hlt := keyDataLen_lt a
  have hsize : sizeofKeyFrame = 99 := rfl
  have hsame : keyDataLen a = keyDataLen b := by
    rw [keyDataLen, field_eq_of_take h (by omega), keyDataLen]
  have hmod := mod_of_decrypted hdec
  have hcipher := cipherLen_eq hmod hle hlt
  have hframe := keyDataLen_decrypted hle hdec
  rw [wpaDecryptEapolKeyData_eq hmod (by omega), hcipher] at hdec
  obtain ⟨plain, hplain, hframe_eq⟩ := Option.map_eq_some_iff.mp (Except.ok.inj hdec)
  have hlength := c.unwrap_length _ _ _ hplain
  rw [field, List.length_take, List.length_drop] at hlength
  refine ⟨overwrite (overwrite b sizeofKeyFrame plain) 97
    (be16 ((keyDataLen a + 65536 - 8) % 65536)), ?_, ?_, by omega⟩
  · rw [wpaDecryptEapolKeyData_eq (hsame ▸ hmod) (by rw [← hsame]; omega), ← hsame, hcipher,
      ← field_eq_of_take h (by omega), hplain, Option.map_some]
  · rw [← hframe_eq]
    refine take_overwrite (take_overwrite h (by omega) ha hb) ?_ ?_ ?_
    · show 97 + 2 ≤ m
      omega
    · rw [length_overwrite (by omega)]
      exact ha
    · rw [length_overwrite (by omega)]
      exact hb

/-- The security checks on message 3 go by the header and the key data. -/
theorem eapol3of4SecurityOk_congr {a b : Bytes} {m : Nat} {s : LoopState}
    (h : a.take m = b.take m) (hheader : SameHeader a b)
    (hdata : sizeofKeyFrame + keyDataLen a ≤ m) :
    eapol3of4SecurityOk ctx a s = eapol3of4SecurityOk ctx b s := by
  have hkeyData : keyData a = keyData b := by
    rw [keyData, field_eq_of_take h hdata, hheader.keyDataLen, keyData]
  unfold eapol3of4SecurityOk
  rw [hheader.keyReplayCounter, hheader.keyNonce, hkeyData]

theorem eapolGroupHsSecurityOk_congr {a b : Bytes} {m : Nat} {s : LoopState}
    (h : a.take m = b.take m) (hheader : SameHeader a b)
    (hdata : sizeofKeyFrame + keyDataLen a ≤ m) :
    eapolGroupHsSecurityOk a s = eapolGroupHsSecurityOk b s := by
  have hkeyData : keyData a = keyData b := by
    rw [keyData, field_eq_of_take h hdata, hheader.keyDataLen, keyData]
  unfold eapolGroupHsSecurityOk
  rw [hheader.keyReplayCounter, hkeyData]

end

/-! ## Frames that are unwrapped -/

section

variable {c : Crypto} {ctx : WlanCtx} {env : FrameEnv} {f : RxFrame} {s : LoopState}

theorem Unwrapped.blocks (h : Unwrapped c env f s) : keyDataLen f.buf % 8 = 0 := by
  cases h with
  | msg3 _ _ _ _ hunwrapped => exact mod_of_unwrapped hunwrapped
  | groupMsg1 _ _ _ _ _ hunwrapped => exact mod_of_unwrapped hunwrapped

/-- Where message 3 is awaited, a frame that is not unwrapped is ignored. -/
theorem ignored_of_fourWay2Sent (hlength : sizeofKeyFrame ≤ f.len)
    (hassociated : env.associated = true) (hstate : s.eapolAuthState = .fourWay2Sent)
    (hnot : ¬ Unwrapped c env f s) : processEapolFrame c ctx env f s = .ok (.quiet 0 s) := by
  rw [processEapolFrame_of_fourWay2Sent hlength hassociated hstate]
  cases hchecked : unwrapsMsg3 c s.sm.ptk f with
  | false =>
      rw [is4wayMsg3_of_not hchecked]
      rfl
  | true =>
      have hnone : wpaDecryptEapolKeyData c s.sm.ptk f.buf = .ok none := by
        by_contra hunwrapped
        exact hnot (.msg3 hlength hassociated hstate hchecked hunwrapped)
      rw [is4wayMsg3_of_unwraps hchecked, hnone]
      rfl

/-- Where group messages are awaited, a frame that is not unwrapped is ignored. -/
theorem ignored_of_groupHsReady (hlength : sizeofKeyFrame ≤ f.len)
    (hassociated : env.associated = true) (hstate : s.eapolAuthState = .groupHsReady)
    (hmsg1 : is4wayMsg1 f.buf = false) (hnot : ¬ Unwrapped c env f s) :
    processEapolFrame c ctx env f s = .ok (.quiet 0 s) := by
  rw [processEapolFrame_of_groupHsReady hlength hassociated hstate hmsg1]
  cases hchecked : unwrapsGroupMsg1 c s.sm.ptk f with
  | false =>
      rw [isGroupHsMsg1_of_not hchecked]
      rfl
  | true =>
      have hnone : wpaDecryptEapolKeyData c s.sm.ptk f.buf = .ok none := by
        by_contra hunwrapped
        exact hnot (.groupMsg1 hlength hassociated hstate hmsg1 hchecked hunwrapped)
      rw [isGroupHsMsg1_of_unwraps hchecked, hnone]
      rfl

/-- After a state change that the callback accepts, the calls are those of the rest. -/
theorem andThen_quiet {a : AuthState} {next : LoopState → Outcome} {s' : LoopState}
    (h : (eapolAuthStateChange env a s').andThen next = .quiet 0 s) :
    ∃ s'', (next s'').ret = 0 ∧ (next s'').events = [] := by
  unfold Outcome.andThen at h
  by_cases hchange : (eapolAuthStateChange env a s').ret ≠ 0
  · rw [if_pos hchange] at h
    exact absurd (congrArg Outcome.ret h) hchange
  · rw [if_neg hchange] at h
    exact ⟨_, congrArg Outcome.ret h, congrArg Outcome.events h⟩

/-- A message 3 that has been processed without an error has been answered. -/
theorem processEapol4wayMsg3_events {frame : Bytes} {ies : WpaEapolIeParse}
    (h : (processEapol4wayMsg3 c env frame ies s).ret = 0) :
    (processEapol4wayMsg3 c env frame ies s).events ≠ [] := by
  unfold processEapol4wayMsg3 at h ⊢
  by_cases hassociated : (!env.stillAssociated) = true
  · rw [if_pos hassociated] at h
    cases h
  rw [if_neg hassociated] at h ⊢
  dsimp only at h ⊢
  unfold sendKeyFrame at h ⊢
  cases hmic : c.wpaEapolKeyMic (ptkKck s.sm.ptk)
      (shortKeyFrame 0x030a (keyReplayCounter frame)) with
  | none =>
      rw [hmic] at h
      cases h
  | some mic =>
      rw [hmic] at h
      dsimp only at h ⊢
      by_cases hsend : env.sendResult < 0
      · rw [if_pos hsend] at h
        exact absurd h (Int.ne_of_lt hsend)
      · rw [if_neg hsend]
        exact List.cons_ne_nil _ _

/-- The key of a group message is installed first of all. -/
theorem processEapolGroupHsMsg1_events {frame gtk : Bytes} {ies : WpaEapolIeParse}
    (hgtk : ies.gtk = some gtk) (hlength : gtk.length = 18) :
    (processEapolGroupHsMsg1 c env frame ies s).events ≠ [] := by
  have hinstalled : (eapolSetPairwiseGtk env frame gtk s).events ≠ [] := by
    unfold eapolSetPairwiseGtk
    rw [if_neg (by omega)]
    exact List.cons_ne_nil _ _
  unfold processEapolGroupHsMsg1
  rw [hgtk, Option.getD_some, Outcome.andThen]
  by_cases hfailed : (eapolSetPairwiseGtk env frame gtk s).ret ≠ 0
  · rw [if_pos hfailed]
    exact hinstalled
  · rw [if_neg hfailed]
    exact List.append_ne_nil_of_left_ne_nil hinstalled _

/-- A frame that is unwrapped is not ignored. -/
theorem Unwrapped.not_ignored (h : Unwrapped c env f s) :
    processEapolFrame c ctx env f s ≠ .ok (.quiet 0 s) := by
  intro hquiet
  cases h with
  | msg3 hlength hassociated hstate hchecked hunwrapped =>
      rw [processEapolFrame_of_fourWay2Sent hlength hassociated hstate,
        is4wayMsg3_of_unwraps hchecked] at hquiet
      cases hdec : wpaDecryptEapolKeyData c s.sm.ptk f.buf with
      | error fault =>
          rw [hdec] at hquiet
          cases hquiet
      | ok decrypted =>
          rw [hdec, ok_bind] at hquiet
          cases decrypted with
          | none => exact hunwrapped hdec
          | some frame =>
              unfold afterUnwrapMsg3 at hquiet
              dsimp only at hquiet
              cases hok : eapol3of4SecurityOk ctx frame s with
              | error fault =>
                  rw [hok] at hquiet
                  cases hquiet
              | ok checked =>
                  rw [hok] at hquiet
                  cases checked with
                  | none =>
                      have hret : (-1 : Int) = 0 := congrArg Outcome.ret (Except.ok.inj hquiet)
                      exact absurd hret (by decide)
                  | some checked =>
                      obtain ⟨s', ies⟩ := checked
                      obtain ⟨s'', hret, hevents⟩ := andThen_quiet (Except.ok.inj hquiet)
                      exact processEapol4wayMsg3_events hret hevents
  | groupMsg1 hlength hassociated hstate hmsg1 hchecked hunwrapped =>
      rw [processEapolFrame_of_groupHsReady hlength hassociated hstate hmsg1,
        isGroupHsMsg1_of_unwraps hchecked] at hquiet
      cases hdec : wpaDecryptEapolKeyData c s.sm.ptk f.buf with
      | error fault =>
          rw [hdec] at hquiet
          cases hquiet
      | ok decrypted =>
          rw [hdec] at hquiet
          cases decrypted with
          | none => exact hunwrapped hdec
          | some frame =>
              have hanswer := Except.ok.inj hquiet
              unfold afterUnwrapGroupMsg1 at hanswer
              dsimp only at hanswer
              cases hok : eapolGroupHsSecurityOk frame s with
              | none =>
                  rw [hok] at hanswer
                  have hret : (-1 : Int) = 0 := congrArg Outcome.ret hanswer
                  exact absurd hret (by decide)
              | some checked =>
                  obtain ⟨s', ies⟩ := checked
                  rw [hok] at hanswer
                  obtain ⟨_, gtk, hgtk, hlen, _⟩ := eapolGroupHsSecurityOk_some hok
                  obtain ⟨s'', _, hevents⟩ := andThen_quiet hanswer
                  exact processEapolGroupHsMsg1_events hgtk hlen hevents

/-- A message 1 that is taken changes the state. -/
theorem receive4wayMsg1_state (h : s.eapolAuthState = .preauth ∨ s.eapolAuthState = .groupHsReady) :
    (receive4wayMsg1 c ctx env f s).state ≠ s := by
  have hcounter := receive4wayMsg1_counter c ctx env f s
  have hstate : (receive4wayMsg1 c ctx env f s).state.eapolAuthState = .fourWay1Rcvd ∨
      (receive4wayMsg1 c ctx env f s).state.eapolAuthState = .fourWay2Sent := by
    by_cases hsaves : SavesCounter env
    · exact (hcounter.1 hsaves).imp At.state At.state
    · exact .inl (hcounter.2 hsaves).state
  intro hsame
  rw [hsame] at hstate
  rcases h with h | h <;> rw [h] at hstate <;> rcases hstate with hstate | hstate <;>
    cases hstate

/-- A frame of the size of the header, with key data that cannot be unwrapped, is not called
invalid. -/
theorem not_invalid (hlength : sizeofKeyFrame ≤ f.len) (hodd : keyDataLen f.buf % 8 ≠ 0) :
    processEapolFrame c ctx env f s ≠ .ok (.quiet errInvalid s) := by
  have hnot : ¬ Unwrapped c env f s := fun h => hodd h.blocks
  have hzero : (Except.ok (.quiet 0 s) : Except Fault Outcome) ≠ .ok (.quiet errInvalid s) := by
    intro h
    have hret : (0 : Int) = errInvalid := congrArg Outcome.ret (Except.ok.inj h)
    exact absurd hret (by decide)
  have hmsg1 (hstate : s.eapolAuthState = .preauth ∨ s.eapolAuthState = .groupHsReady) :
      (Except.ok (receive4wayMsg1 c ctx env f s) : Except Fault Outcome) ≠
        .ok (.quiet errInvalid s) := by
    intro h
    exact receive4wayMsg1_state hstate (congrArg Outcome.state (Except.ok.inj h))
  cases hassociated : env.associated with
  | false =>
      unfold processEapolFrame
      rw [if_neg (Nat.not_lt.mpr hlength), hassociated]
      exact hzero
  | true =>
      cases hstate : s.eapolAuthState with
      | fourWay2Sent =>
          rw [ignored_of_fourWay2Sent hlength hassociated hstate hnot]
          exact hzero
      | groupHsReady =>
          cases his : is4wayMsg1 f.buf with
          | false =>
              rw [ignored_of_groupHsReady hlength hassociated hstate his hnot]
              exact hzero
          | true =>
              unfold processEapolFrame
              rw [if_neg (Nat.not_lt.mpr hlength), hassociated, hstate, his]
              exact hmsg1 (.inr hstate)
      | preauth =>
          unfold processEapolFrame
          rw [if_neg (Nat.not_lt.mpr hlength), hassociated, hstate]
          cases his : is4wayMsg1 f.buf with
          | false => exact hzero
          | true => exact hmsg1 (.inl hstate)
      | fourWay1Rcvd | fourWay3Rcvd | fourWayComplete =>
          unfold processEapolFrame
          rw [if_neg (Nat.not_lt.mpr hlength), hassociated, hstate]
          exact hzero
      | groupHs1Rcvd | groupHsComplete | authenticated | deauthenticated =>
          unfold processEapolFrame
          rw [if_neg (Nat.not_lt.mpr hlength), hassociated, hstate]
          intro h
          have hret : (-1 : Int) = errInvalid := congrArg Outcome.ret (Except.ok.inj h)
          exact absurd hret (by decide)

end

/-! ## Other trailers -/

/-- The EAPOL header and the packet body, with other bytes received after them, and other
bytes in the buffer after those. -/
def RxFrame.continued (f : RxFrame) (h : bodyEnd f.buf ≤ f.len) (received rest : Bytes) :
    RxFrame where
  buf := f.buf.take (bodyEnd f.buf) ++ received ++ rest
  len := bodyEnd f.buf + received.length
  fits := by
    have hfits := f.fits
    rw [List.length_append, List.length_append, List.length_take]
    omega

section

variable {c : Crypto} {ctx : WlanCtx} {env : FrameEnv} {f : RxFrame} {s : LoopState}

theorem sameBody_continued (h : bodyEnd f.buf ≤ f.len) (received rest : Bytes) :
    SameBody f (f.continued h received rest) := by
  refine ⟨h, Nat.le_add_right _ _, ?_⟩
  have hfits := f.fits
  have hlength : (f.buf.take (bodyEnd f.buf)).length = bodyEnd f.buf := by
    rw [List.length_take]
    omega
  show _ = (f.buf.take (bodyEnd f.buf) ++ received ++ rest).take (bodyEnd f.buf)
  rw [List.append_assoc, List.take_append_of_le_length (Nat.le_of_eq hlength.symm),
    List.take_take, Nat.min_self]

/-- The last byte of the header is the low byte of the length of the key data. -/
theorem keyDataLen_append {before : Bytes} (h : before.length = 98) (low : UInt8) :
    keyDataLen (before ++ [low]) % 256 = low.toNat := by
  obtain ⟨high, hhigh⟩ := List.length_eq_one_iff.mp
    (show (before.drop 97).length = 1 by rw [List.length_drop]; omega)
  have hfield : field (before ++ [low]) 97 2 = [high, low] := by
    rw [field, List.drop_append_of_le_length (by omega), hhigh]
    rfl
  have hlow : low.toNat < 256 := low.toNat_lt
  rw [keyDataLen, hfield, beNat, List.foldl_cons, List.foldl_cons, List.foldl_nil]
  omega

/-- A packet body shorter than the rest of the header of a frame is taken together with
padding, and is too short without it. -/
theorem IgnoresTrailer.body_le (hwhole : bodyEnd f.buf ≤ f.len)
    (h : IgnoresTrailer c ctx env f s) : 95 ≤ packetBodyLen f.buf := by
  by_contra hshort
  have hfits := f.fits
  have hend : bodyEnd f.buf ≤ 98 := by
    unfold bodyEnd
    omega
  have hbare := h _ (sameBody_continued hwhole [] [])
  have hinvalid : processEapolFrame c ctx env (f.continued hwhole [] []) s =
      .ok (.quiet errInvalid s) := by
    unfold processEapolFrame
    refine if_pos ?_
    show bodyEnd f.buf + 0 < 99
    omega
  have hpadded := h _ (sameBody_continued hwhole
    (List.replicate (98 - bodyEnd f.buf) 0 ++ [1]) [])
  refine not_invalid ?_ ?_ (hpadded.symm.trans (hbare.trans hinvalid))
  · show 99 ≤ bodyEnd f.buf + (List.replicate (98 - bodyEnd f.buf) (0 : UInt8) ++ [1]).length
    rw [List.length_append, List.length_replicate, List.length_singleton]
    omega
  · have hbefore : (f.buf.take (bodyEnd f.buf) ++
        List.replicate (98 - bodyEnd f.buf) (0 : UInt8)).length = 98 := by
      rw [List.length_append, List.length_take, List.length_replicate]
      omega
    have hlow := keyDataLen_append hbefore 1
    rw [List.append_assoc, ← List.append_nil (_ ++ _)] at hlow
    have hone : (1 : UInt8).toNat = 1 := by decide
    show keyDataLen (f.buf.take (bodyEnd f.buf) ++
      (List.replicate (98 - bodyEnd f.buf) 0 ++ [1]) ++ []) % 8 ≠ 0
    omega

theorem SameBody.bodyEnd_eq {g : RxFrame} (h : SameBody f g) : bodyEnd f.buf = bodyEnd g.buf := by
  have hlen : 2 + 2 ≤ bodyEnd f.buf := Nat.le_add_right _ _
  rw [bodyEnd, packetBodyLen, field_eq_of_take h.bytes hlen, bodyEnd, packetBodyLen]

theorem SameBody.symm {g : RxFrame} (h : SameBody f g) : SameBody g f := by
  have hend := h.bodyEnd_eq
  exact ⟨hend ▸ h.right, hend ▸ h.left, hend ▸ h.bytes.symm⟩

theorem SameBody.header {g : RxFrame} (h : SameBody f g) (hbody : 95 ≤ packetBodyLen f.buf) :
    SameHeader f.buf g.buf := by
  refine .of_take h.bytes ?_
  unfold bodyEnd sizeofKeyFrame
  omega

/-- Of two buffers that are taken alike, both are unwrapped or none. -/
theorem SameBody.unwrapped {g : RxFrame} (h : SameBody f g) (hbody : 95 ≤ packetBodyLen f.buf)
    (heq : processEapolFrame c ctx env f s = processEapolFrame c ctx env g s)
    (hf : Unwrapped c env f s) : Unwrapped c env g s := by
  have hlength : sizeofKeyFrame ≤ g.len := by
    have hright := h.right
    unfold bodyEnd at hright
    unfold sizeofKeyFrame
    omega
  have hnot : processEapolFrame c ctx env f s ≠ .ok (.quiet 0 s) := hf.not_ignored
  rw [heq] at hnot
  by_contra hg
  cases hf with
  | msg3 _ hassociated hstate _ _ =>
      exact hnot (ignored_of_fourWay2Sent hlength hassociated hstate hg)
  | groupMsg1 _ hassociated hstate hmsg1 _ _ =>
      rw [(h.header hbody).is4wayMsg1] at hmsg1
      exact hnot (ignored_of_groupHsReady hlength hassociated hstate hmsg1 hg)

/-- Where group messages are awaited, the outcome of an unwrapped frame is that of the
unwrapping. -/
theorem Unwrapped.of_groupHsReady (h : Unwrapped c env f s)
    (hstate : s.eapolAuthState = .groupHsReady) : processEapolFrame c ctx env f s =
      ((wpaDecryptEapolKeyData c s.sm.ptk f.buf).map (afterUnwrapGroupMsg1 f s)).map
        (answerGroupMsg1 c env) := by
  cases h with
  | msg3 _ _ hsent _ _ =>
      rw [hstate] at hsent
      cases hsent
  | groupMsg1 hlength hassociated _ hmsg1 hchecked _ =>
      rw [processEapolFrame_of_groupHsReady hlength hassociated hstate hmsg1,
        isGroupHsMsg1_of_unwraps hchecked]

/-- If the frame is taken alike whatever comes after the body, and unwrapped, its key data
is in the body. -/
theorem IgnoresTrailer.keyDataInBody (h : IgnoresTrailer c ctx env f s)
    (hwhole : bodyEnd f.buf ≤ f.len) (hf : Unwrapped c env f s) : KeyDataInBody f.buf := by
  have hbody := h.body_le hwhole
  have hunwrapped (g : RxFrame) (hsame : SameBody f g) : Unwrapped c env g s :=
    hsame.unwrapped hbody (h g hsame) hf
  have hsame := sameBody_continued hwhole [] []
  have hheader := hsame.header hbody
  have hmod := hf.blocks
  have hlt := keyDataLen_lt f.buf
  cases hf with
  | msg3 hlength hassociated hstate hchecked _ =>
      cases hunwrapped _ hsame with
      | groupMsg1 _ _ hready _ _ _ =>
          rw [hstate] at hready
          cases hready
      | msg3 _ _ _ hbare _ =>
          obtain ⟨_, _, hlong, hfull, _⟩ := unwrapsMsg3_iff.mp hbare
          rw [← hheader.keyDataLen] at hlong hfull
          have hlen : (f.continued hwhole [] []).len = bodyEnd f.buf := rfl
          unfold sizeofRsnIeHdr at hfull
          exact ⟨by omega, by omega⟩
  | groupMsg1 hlength hassociated hstate hmsg1 hchecked _ =>
      have hread : sizeofKeyFrame + cipherLen (keyDataLen f.buf) ≤ bodyEnd f.buf := by
        by_contra hbeyond
        -- the bare body ends the buffer; then there are enough bytes after it
        have hstale := sameBody_continued hwhole []
          (List.replicate (sizeofKeyFrame + cipherLen (keyDataLen f.buf)) 0)
        have hbareOut := (h _ hsame).symm.trans (h _ hstale)
        rw [(hunwrapped _ hsame).of_groupHsReady hstate,
          (hunwrapped _ hstale).of_groupHsReady hstate,
          wpaDecryptEapolKeyData_outOfBounds (hheader.keyDataLen ▸ hmod),
          wpaDecryptEapolKeyData_eq ((hstale.header hbody).keyDataLen ▸ hmod)] at hbareOut
        · cases hbareOut
        · rw [← (hstale.header hbody).keyDataLen]
          show _ ≤ (f.buf.take (bodyEnd f.buf) ++ [] ++ List.replicate _ 0).length
          rw [List.length_append, List.length_replicate]
          exact Nat.le_add_left _ _
        · rw [← hheader.keyDataLen]
          show (f.buf.take (bodyEnd f.buf) ++ [] ++ []).length < _
          rw [List.append_nil, List.append_nil, List.length_take]
          omega
      have hsmall : packetBodyLen f.buf < 65536 := by
        have hfield : (field f.buf 2 2).length ≤ 2 := by
          rw [field, List.length_take]
          exact Nat.min_le_left _ _
        exact Nat.lt_of_lt_of_le (beNat_lt _)
          (Nat.pow_le_pow_right (by decide) hfield)
      have hzero : keyDataLen f.buf ≠ 0 := by
        intro hzero
        rw [hzero, cipherLen_zero] at hread
        unfold sizeofKeyFrame bodyEnd at hread
        omega
      have hle : 8 ≤ keyDataLen f.buf := by omega
      rw [cipherLen_eq hmod hle hlt] at hread
      exact ⟨hle, hread⟩

/-! ## The same outcome -/

/-- Two frames with one header that are not unwrapped are taken alike. -/
theorem processEapolFrame_congr {g : RxFrame} (hheader : SameHeader f.buf g.buf)
    (hlf : sizeofKeyFrame ≤ f.len) (hlg : sizeofKeyFrame ≤ g.len)
    (hf : ¬ Unwrapped c env f s) (hg : ¬ Unwrapped c env g s) :
    processEapolFrame c ctx env f s = processEapolFrame c ctx env g s := by
  have hmsg1 : receive4wayMsg1 c ctx env f s = receive4wayMsg1 c ctx env g s := by
    rw [receive4wayMsg1, processEapol4wayMsg1_congr hheader, receive4wayMsg1]
  cases hassociated : env.associated with
  | false =>
      unfold processEapolFrame
      rw [if_neg (Nat.not_lt.mpr hlf), if_neg (Nat.not_lt.mpr hlg), hassociated]
      rfl
  | true =>
      cases hstate : s.eapolAuthState with
      | fourWay2Sent =>
          rw [ignored_of_fourWay2Sent hlf hassociated hstate hf,
            ignored_of_fourWay2Sent hlg hassociated hstate hg]
      | groupHsReady =>
          cases his : is4wayMsg1 f.buf with
          | false =>
              rw [ignored_of_groupHsReady hlf hassociated hstate his hf,
                ignored_of_groupHsReady hlg hassociated hstate (hheader.is4wayMsg1 ▸ his) hg]
          | true =>
              unfold processEapolFrame
              rw [if_neg (Nat.not_lt.mpr hlf), if_neg (Nat.not_lt.mpr hlg), hassociated,
                hstate, ← hheader.is4wayMsg1, his, hmsg1]
              rfl
      | preauth =>
          unfold processEapolFrame
          rw [if_neg (Nat.not_lt.mpr hlf), if_neg (Nat.not_lt.mpr hlg), hstate,
            ← hheader.is4wayMsg1, hmsg1]
      | fourWay1Rcvd | fourWay3Rcvd | fourWayComplete | groupHs1Rcvd | groupHsComplete
      | authenticated | deauthenticated =>
          unfold processEapolFrame
          rw [if_neg (Nat.not_lt.mpr hlf), if_neg (Nat.not_lt.mpr hlg), hstate]

/-- Unwrapped frames with the same key data leave buffers behind that agree as far as the
packet body goes. -/
theorem SameBody.decrypted {g : RxFrame} (h : SameBody f g) (hdata : KeyDataInBody f.buf)
    (hunwrapped : wpaDecryptEapolKeyData c s.sm.ptk f.buf ≠ .ok none)
    (hmod : keyDataLen f.buf % 8 = 0) : ∃ frame frame',
      wpaDecryptEapolKeyData c s.sm.ptk f.buf = .ok (some frame) ∧
      wpaDecryptEapolKeyData c s.sm.ptk g.buf = .ok (some frame') ∧
      frame.take (bodyEnd f.buf) = frame'.take (bodyEnd f.buf) ∧
      sizeofKeyFrame + keyDataLen frame ≤ bodyEnd f.buf := by
  obtain ⟨hle, hinside⟩ := hdata
  have hf := Nat.le_trans h.left f.fits
  have hg := Nat.le_trans h.right g.fits
  have hread : sizeofKeyFrame + cipherLen (keyDataLen f.buf) ≤ f.buf.length := by
    rw [cipherLen_eq hmod hle (keyDataLen_lt _)]
    omega
  have hdec : wpaDecryptEapolKeyData c s.sm.ptk f.buf = _ := wpaDecryptEapolKeyData_eq hmod hread
  cases hplain : c.aesUnwrap (ptkKek s.sm.ptk)
      (field f.buf sizeofKeyFrame (cipherLen (keyDataLen f.buf))) with
  | none =>
      rw [hplain] at hdec
      exact absurd hdec hunwrapped
  | some plain =>
      rw [hplain, Option.map_some] at hdec
      obtain ⟨frame', hdec', htake, hlen⟩ :=
        wpaDecryptEapolKeyData_congr h.bytes hf hg hle hinside hdec
      exact ⟨_, frame', hdec, hdec', htake, hlen⟩

/-- Two frames with one body that are unwrapped and have their key data in it are taken
alike. -/
theorem SameBody.processEapolFrame_eq {g : RxFrame} (h : SameBody f g)
    (hdata : KeyDataInBody f.buf) (hf : Unwrapped c env f s) (hg : Unwrapped c env g s) :
    processEapolFrame c ctx env f s = processEapolFrame c ctx env g s := by
  have hle : sizeofKeyFrame ≤ bodyEnd f.buf := Nat.le_trans (Nat.le_add_right _ _) hdata.2
  have hmod := hf.blocks
  cases hf with
  | msg3 hlf hassociated hstate hcheckedf hunwrapped =>
      cases hg with
      | groupMsg1 _ _ hready _ _ _ =>
          rw [hstate] at hready
          cases hready
      | msg3 hlg _ _ hcheckedg _ =>
          obtain ⟨frame, frame', hdec, hdec', htake, hlen⟩ := h.decrypted hdata hunwrapped hmod
          have hheader : SameHeader frame frame' := .of_take htake hle
          rw [processEapolFrame_of_fourWay2Sent hlf hassociated hstate,
            processEapolFrame_of_fourWay2Sent hlg hassociated hstate,
            is4wayMsg3_of_unwraps hcheckedf, is4wayMsg3_of_unwraps hcheckedg, hdec, hdec',
            ok_bind, ok_bind]
          unfold afterUnwrapMsg3
          dsimp only
          rw [eapol3of4SecurityOk_congr htake hheader hlen]
          cases eapol3of4SecurityOk ctx frame' s with
          | error fault => rfl
          | ok checked =>
              cases checked with
              | none => rfl
              | some checked =>
                  obtain ⟨s', ies⟩ := checked
                  show Except.ok ((eapolAuthStateChange env .fourWay3Rcvd s').andThen
                    (processEapol4wayMsg3 c env frame ies)) = _
                  rw [processEapol4wayMsg3_congr hheader]
                  rfl
  | groupMsg1 hlf hassociated hstate hmsg1f hcheckedf hunwrapped =>
      obtain ⟨frame, frame', hdec, hdec', htake, hlen⟩ := h.decrypted hdata hunwrapped hmod
      have hheader : SameHeader frame frame' := .of_take htake hle
      rw [Unwrapped.of_groupHsReady
          (.groupMsg1 hlf hassociated hstate hmsg1f hcheckedf hunwrapped) hstate,
        hg.of_groupHsReady hstate, hdec, hdec']
      show Except.ok (answerGroupMsg1 c env (afterUnwrapGroupMsg1 f s (some frame))) =
        Except.ok (answerGroupMsg1 c env (afterUnwrapGroupMsg1 g s (some frame')))
      unfold afterUnwrapGroupMsg1
      dsimp only
      rw [eapolGroupHsSecurityOk_congr htake hheader hlen]
      cases eapolGroupHsSecurityOk frame' s with
      | none => rfl
      | some checked =>
          obtain ⟨s', ies⟩ := checked
          show Except.ok ((eapolAuthStateChange env .groupHs1Rcvd s').andThen
            (processEapolGroupHsMsg1 c env frame ies)) = _
          rw [processEapolGroupHsMsg1_congr hheader]
          rfl

/--
**What comes after the packet body.**  In every state a received frame has the same outcome
as every buffer that agrees with it on the EAPOL header and on the packet body, if and only
if the body has the rest of the header of a frame, and either no such buffer passes the MIC
check and is unwrapped, or each one is, the key data being in the body.
-/
theorem ignoresTrailer_iff (c : Crypto) (ctx : WlanCtx) (env : FrameEnv) (f : RxFrame)
    (s : LoopState) : IgnoresTrailer c ctx env f s ↔
      (bodyEnd f.buf ≤ f.len → 95 ≤ packetBodyLen f.buf ∧
        ((∀ g, SameBody f g → ¬ Unwrapped c env g s) ∨
          (KeyDataInBody f.buf ∧ ∀ g, SameBody f g → Unwrapped c env g s))) := by
  constructor
  · intro h hwhole
    have hbody := h.body_le hwhole
    refine ⟨hbody, ?_⟩
    by_cases hf : Unwrapped c env f s
    · exact .inr ⟨h.keyDataInBody hwhole hf,
        fun g hsame => hsame.unwrapped hbody (h g hsame) hf⟩
    · refine .inl fun g hsame hg => hf ?_
      have hbody' : 95 ≤ packetBodyLen g.buf := by
        have hend := hsame.bodyEnd_eq
        unfold bodyEnd at hend
        omega
      exact hsame.symm.unwrapped hbody' (h g hsame).symm hg
  · intro h g hsame
    obtain ⟨hbody, hunwrapped⟩ := h hsame.left
    have hle : sizeofKeyFrame ≤ bodyEnd f.buf := by
      unfold sizeofKeyFrame bodyEnd
      omega
    have hself : SameBody f f := ⟨hsame.left, hsame.left, rfl⟩
    rcases hunwrapped with hnone | ⟨hdata, hall⟩
    · exact processEapolFrame_congr (hsame.header hbody) (Nat.le_trans hle hsame.left)
        (Nat.le_trans hle hsame.right) (hnone f hself) (hnone g hsame)
    · exact hsame.processEapolFrame_eq hdata (hall f hself) (hall g hsame)

end

/-- A group message with the length of its body, the MIC that the stand-in computes for it,
and padding. -/
def paddedGroupMsg1 (padding : Bytes) : RxFrame :=
  let keyData := List.replicate 8 0 ++ [221, 22, 0x00, 0x0f, 0xac, 1] ++ List.replicate 18 5
  let message (mic : Bytes) := [2, 3] ++ be16 (95 + keyData.length) ++ [2] ++ be16 0x1382 ++
    be16 0 ++ be64 1 ++ List.replicate 64 0 ++ mic ++ be16 keyData.length ++ keyData
  wholeFrame (message ((plainCrypto.wpaEapolKeyMic []
    (message (List.replicate 16 0))).getD []) ++ padding)

/-- The message is answered; with one byte of padding its MIC is wrong. -/
theorem paddedGroupMsg1_ignored : ¬ IgnoresTrailer plainCrypto sampleCtx willingEnv
    (paddedGroupMsg1 []) { freshLoop with eapolAuthState := .groupHsReady } := by
  intro h
  have hsame : SameBody (paddedGroupMsg1 []) (paddedGroupMsg1 [1]) :=
    ⟨by decide +kernel, by decide +kernel, by decide +kernel⟩
  have hevents := congrArg (fun o => o.toOption.map fun o => o.events.isEmpty) (h _ hsame)
  exact absurd hevents (by decide +kernel)

end Blts.Wlan
