import Blts.Wlan.Unwrapping

/-!
# The bytes of the key data

`KeyDataUse` is what a recogniser does with key data: it reads or writes bytes of the frame,
and it takes eight from the length.  The uses of a frame follow the functions of the
recognisers; an element is counted as a whole when it is looked at.
-/

namespace Blts.Wlan

/-- A use of key data. -/
inductive KeyDataUse where
  /-- `len` bytes of the frame are read or written, from `off` on -/
  | bytes (off len : Nat)
  /-- `keydatalen -= 8` -/
  | plainLen (keydatalen : Nat)
  deriving DecidableEq

/-- The bytes are among those received; the length does not wrap around. -/
def KeyDataUse.Inside (frameLen : Nat) : KeyDataUse → Prop
  | .bytes off len => off + len ≤ frameLen
  | .plainLen keydatalen => 8 ≤ keydatalen

/-- `wpa_decrypt_eapol_key_data`: the cipher text is read, and the plain text is copied
over it if the unwrapping has succeeded. -/
def decryptUses (c : Crypto) (ptk buf : Bytes) : List KeyDataUse :=
  if keyDataLen buf % 8 ≠ 0 then []
  else
    .plainLen (keyDataLen buf) :: .bytes sizeofKeyFrame (cipherLen (keyDataLen buf)) ::
      match wpaDecryptEapolKeyData c ptk buf with
      | .ok (some _) => [.bytes sizeofKeyFrame ((keyDataLen buf + 65536 - 8) % 65536)]
      | _ => []

/-- The loop of `wpa_supplicant_parse_ies`, with `pos` at offset `off` and `rest` being the
bytes from there to `end`.  An element that goes on past the end has the whole of the key
data dumped. -/
def parseIesUses (len : Nat) (rounds off : Nat) (rest : Bytes) : List KeyDataUse :=
  match rounds, rest with
  | rounds + 1, eid :: size :: body =>
      .bytes off 2 ::
        if eid.toNat = wlanEidVendorSpecific ∧ size.toNat = 0 then []
        else if rest.length < 2 + size.toNat then [.bytes sizeofKeyFrame len]
        else .bytes off (2 + size.toNat) ::
          parseIesUses len rounds (off + (2 + size.toNat)) (body.drop size.toNat)
  | _, _ => []

/-- `wpa_supplicant_parse_ies` on the key data of a frame. -/
def elementUses (frame : Bytes) : List KeyDataUse :=
  parseIesUses (keyData frame).length (keyData frame).length sizeofKeyFrame (keyData frame)

/-- `eapol_3_of_4_security_ok`. -/
def eapol3of4SecurityUses (frame : Bytes) (s : LoopState) : List KeyDataUse :=
  if keyReplayCounter frame ≤ s.sm.counter then []
  else if keyNonce frame ≠ s.sm.aNonce then []
  else elementUses frame

/-- `eapol_group_hs_security_ok`. -/
def eapolGroupHsSecurityUses (frame : Bytes) (s : LoopState) : List KeyDataUse :=
  if keyReplayCounter frame ≤ s.sm.counter then [] else elementUses frame

/-- The unwrapping, and what is done with the frame after it. -/
def unwrapUses (c : Crypto) (f : RxFrame) (s : LoopState)
    (securityUses : Bytes → LoopState → List KeyDataUse) : List KeyDataUse :=
  decryptUses c s.sm.ptk f.buf ++
    match wpaDecryptEapolKeyData c s.sm.ptk f.buf with
    | .ok (some frame) => securityUses frame s
    | _ => []

/-- The key data that `process_eapol_frame` uses to recognise a message. -/
def keyDataUses (c : Crypto) (env : FrameEnv) (f : RxFrame) (s : LoopState) :
    List KeyDataUse :=
  if f.len < sizeofKeyFrame then []
  else if !env.associated then []
  else
    match s.eapolAuthState with
    | .fourWay2Sent =>
        if unwrapsMsg3 c s.sm.ptk f then unwrapUses c f s eapol3of4SecurityUses else []
    | .groupHsReady =>
        if is4wayMsg1 f.buf then []
        else if unwrapsGroupMsg1 c s.sm.ptk f then
          unwrapUses c f s eapolGroupHsSecurityUses
        else []
    | _ => []

/-- All key data that is used is inside the frame, and its length does not wrap around. -/
def KeyDataSafe (c : Crypto) (env : FrameEnv) (f : RxFrame) (s : LoopState) : Prop :=
  ∀ use ∈ keyDataUses c env f s, use.Inside f.len

/-- A frame whose key data is unwrapped as that of a group message. -/
structure UnwrapsGroup (c : Crypto) (env : FrameEnv) (f : RxFrame) (s : LoopState) : Prop where
  length : sizeofKeyFrame ≤ f.len
  associated : env.associated = true
  ready : s.eapolAuthState = .groupHsReady
  notMsg1 : is4wayMsg1 f.buf = false
  checked : unwrapsGroupMsg1 c s.sm.ptk f = true
  blocks : keyDataLen f.buf % 8 = 0

/-! ## Elements -/

/-- The elements are inside the key data. -/
theorem parseIesUses_inside {len rounds off frameLen : Nat} {rest : Bytes}
    (hlen : sizeofKeyFrame + len ≤ frameLen) (hrest : off + rest.length ≤ frameLen) :
    ∀ use ∈ parseIesUses len rounds off rest, use.Inside frameLen := by
  induction rounds generalizing off rest with
  | zero =>
      intro use huse
      unfold parseIesUses at huse
      exact absurd huse List.not_mem_nil
  | succ rounds ih =>
      match rest with
      | [] =>
          intro use huse
          exact absurd huse List.not_mem_nil
      | [_] =>
          intro use huse
          exact absurd huse List.not_mem_nil
      | eid :: size :: body =>
          have hlength : (eid :: size :: body).length = body.length + 2 := rfl
          rw [hlength] at hrest
          intro use huse
          unfold parseIesUses at huse
          rcases List.mem_cons.mp huse with rfl | huse
          · show off + 2 ≤ frameLen
            omega
          by_cases hpadding : eid.toNat = wlanEidVendorSpecific ∧ size.toNat = 0
          · rw [if_pos hpadding] at huse
            exact absurd huse List.not_mem_nil
          rw [if_neg hpadding] at huse
          by_cases hunderflow : (eid :: size :: body).length < 2 + size.toNat
          · rw [if_pos hunderflow] at huse
            rw [List.mem_singleton.mp huse]
            exact hlen
          rw [if_neg hunderflow, hlength] at *
          rcases List.mem_cons.mp huse with rfl | huse
          · show off + (2 + size.toNat) ≤ frameLen
            omega
          · refine ih ?_ use huse
            rw [List.length_drop]
            omega

/-! ## Unwrapping -/

section

variable {c : Crypto} {env : FrameEnv} {f : RxFrame} {s : LoopState}

/-- If the key data is inside the frame and has eight bytes at least, so is what is
unwrapped. -/
theorem decryptUses_inside (hdata : keyDataLen f.buf % 8 = 0 →
      8 ≤ keyDataLen f.buf ∧ sizeofKeyFrame + keyDataLen f.buf ≤ f.len) :
    ∀ use ∈ decryptUses c s.sm.ptk f.buf, use.Inside f.len := by
  intro use huse
  unfold decryptUses at huse
  by_cases hmod : keyDataLen f.buf % 8 = 0
  · obtain ⟨hle, hlong⟩ := hdata hmod
    have hlt := keyDataLen_lt f.buf
    have hplainLen : (keyDataLen f.buf + 65536 - 8) % 65536 = keyDataLen f.buf - 8 := by
      omega
    rw [if_neg (fun h => h hmod), cipherLen_eq hmod hle hlt, hplainLen] at huse
    rcases List.mem_cons.mp huse with rfl | huse
    · exact hle
    rcases List.mem_cons.mp huse with rfl | huse
    · exact hlong
    cases hdec : wpaDecryptEapolKeyData c s.sm.ptk f.buf with
    | error fault =>
        rw [hdec] at huse
        exact absurd huse List.not_mem_nil
    | ok decrypted =>
        rw [hdec] at huse
        cases decrypted with
        | none => exact absurd huse List.not_mem_nil
        | some frame =>
            rw [List.mem_singleton.mp huse]
            show sizeofKeyFrame + (keyDataLen f.buf - 8) ≤ f.len
            omega
  · rw [if_pos hmod] at huse
    exact absurd huse List.not_mem_nil

/-- The elements of a frame that has been unwrapped are inside it. -/
theorem elementUses_inside {frame : Bytes}
    (hdec : wpaDecryptEapolKeyData c s.sm.ptk f.buf = .ok (some frame))
    (hle : 8 ≤ keyDataLen f.buf) (hlong : sizeofKeyFrame + keyDataLen f.buf ≤ f.len) :
    ∀ use ∈ elementUses frame, use.Inside f.len := by
  have hframe := keyDataLen_decrypted hle hdec
  have hshorter : (keyData frame).length ≤ keyDataLen frame := by
    rw [keyData, field, List.length_take]
    exact Nat.min_le_left _ _
  exact parseIesUses_inside (by omega) (by omega)

/-- Both together, for a recogniser that looks at nothing but elements afterwards. -/
theorem unwrapUses_inside {securityUses : Bytes → LoopState → List KeyDataUse}
    (helements : ∀ frame s, ∀ use ∈ securityUses frame s, use ∈ elementUses frame)
    (hdata : keyDataLen f.buf % 8 = 0 →
      8 ≤ keyDataLen f.buf ∧ sizeofKeyFrame + keyDataLen f.buf ≤ f.len) :
    ∀ use ∈ unwrapUses c f s securityUses, use.Inside f.len := by
  intro use huse
  rcases List.mem_append.mp huse with huse | huse
  · exact decryptUses_inside hdata use huse
  cases hdec : wpaDecryptEapolKeyData c s.sm.ptk f.buf with
  | error fault =>
      rw [hdec] at huse
      exact absurd huse List.not_mem_nil
  | ok decrypted =>
      rw [hdec] at huse
      cases decrypted with
      | none => exact absurd huse List.not_mem_nil
      | some frame =>
          obtain ⟨hle, hlong⟩ := hdata (mod_of_decrypted hdec)
          exact elementUses_inside hdec hle hlong use (helements frame s use huse)

/-- The uses of a group message. -/
theorem UnwrapsGroup.keyDataUses (h : UnwrapsGroup c env f s) :
    keyDataUses c env f s = unwrapUses c f s eapolGroupHsSecurityUses := by
  unfold Wlan.keyDataUses
  rw [if_neg (Nat.not_lt.mpr h.length), h.associated, h.ready]
  dsimp only
  rw [h.notMsg1, h.checked]
  rfl

/-- The security checks look at nothing but elements. -/
theorem eapol3of4SecurityUses_elements {frame : Bytes} :
    ∀ use ∈ eapol3of4SecurityUses frame s, use ∈ elementUses frame := by
  intro use huse
  unfold eapol3of4SecurityUses at huse
  by_cases hreplay : keyReplayCounter frame ≤ s.sm.counter
  · rw [if_pos hreplay] at huse
    exact absurd huse List.not_mem_nil
  rw [if_neg hreplay] at huse
  by_cases hnonce : keyNonce frame ≠ s.sm.aNonce
  · rw [if_pos hnonce] at huse
    exact absurd huse List.not_mem_nil
  · rwa [if_neg hnonce] at huse

theorem eapolGroupHsSecurityUses_elements {frame : Bytes} :
    ∀ use ∈ eapolGroupHsSecurityUses frame s, use ∈ elementUses frame := by
  intro use huse
  unfold eapolGroupHsSecurityUses at huse
  by_cases hreplay : keyReplayCounter frame ≤ s.sm.counter
  · rw [if_pos hreplay] at huse
    exact absurd huse List.not_mem_nil
  · rwa [if_neg hreplay] at huse

/-- Key data is used where a message 3 or a group message gets past its checks. -/
theorem mem_keyDataUses {use : KeyDataUse} (huse : use ∈ keyDataUses c env f s) :
    (unwrapsMsg3 c s.sm.ptk f = true ∧ use ∈ unwrapUses c f s eapol3of4SecurityUses) ∨
      (keyDataLen f.buf % 8 = 0 → UnwrapsGroup c env f s) ∧
        use ∈ unwrapUses c f s eapolGroupHsSecurityUses := by
  unfold keyDataUses at huse
  by_cases hshort : f.len < sizeofKeyFrame
  · rw [if_pos hshort] at huse
    exact absurd huse List.not_mem_nil
  rw [if_neg hshort] at huse
  cases hassociated : env.associated with
  | false =>
      rw [hassociated] at huse
      exact absurd huse List.not_mem_nil
  | true =>
      rw [hassociated] at huse
      cases hstate : s.eapolAuthState with
      | fourWay2Sent =>
          rw [hstate] at huse
          cases hchecked : unwrapsMsg3 c s.sm.ptk f with
          | false =>
              rw [hchecked] at huse
              exact absurd huse List.not_mem_nil
          | true =>
              rw [hchecked] at huse
              exact .inl ⟨rfl, huse⟩
      | groupHsReady =>
          rw [hstate] at huse
          cases hmsg1 : is4wayMsg1 f.buf with
          | true =>
              rw [hmsg1] at huse
              exact absurd huse List.not_mem_nil
          | false =>
              cases hchecked : unwrapsGroupMsg1 c s.sm.ptk f with
              | false =>
                  rw [hmsg1, hchecked] at huse
                  exact absurd huse List.not_mem_nil
              | true =>
                  rw [hmsg1, hchecked] at huse
                  exact .inr ⟨fun hmod => ⟨Nat.not_lt.mp hshort, hassociated, hstate, hmsg1,
                    hchecked, hmod⟩, huse⟩
      | preauth | fourWay1Rcvd | fourWay3Rcvd | fourWayComplete | groupHs1Rcvd
      | groupHsComplete | authenticated | deauthenticated =>
          rw [hstate] at huse
          exact absurd huse List.not_mem_nil

/--
**Where the key data is.**  In every state and for every frame, what is read and written
as key data lies inside the received bytes and the plaintext length does not wrap around, if
and only if a frame whose key data is unwrapped as that of a group message has all of it, and
eight bytes at least.
-/
theorem keyDataSafe_iff (c : Crypto) (env : FrameEnv) (f : RxFrame) (s : LoopState) :
    KeyDataSafe c env f s ↔ (UnwrapsGroup c env f s →
      8 ≤ keyDataLen f.buf ∧ sizeofKeyFrame + keyDataLen f.buf ≤ f.len) := by
  constructor
  · intro h hgroup
    have hmod := hgroup.blocks
    unfold KeyDataSafe at h
    rw [hgroup.keyDataUses, unwrapUses, decryptUses, if_neg (fun h => h hmod)] at h
    have hle : 8 ≤ keyDataLen f.buf := h (.plainLen _) List.mem_cons_self
    have hread : sizeofKeyFrame + cipherLen (keyDataLen f.buf) ≤ f.len :=
      h (.bytes _ _) (List.mem_cons_of_mem _ List.mem_cons_self)
    rw [cipherLen_eq hmod hle (keyDataLen_lt f.buf)] at hread
    exact ⟨hle, hread⟩
  · intro h use huse
    rcases mem_keyDataUses huse with ⟨hchecked, huse⟩ | ⟨hgroup, huse⟩
    · obtain ⟨_, _, hlong, hfull, _⟩ := unwrapsMsg3_iff.mp hchecked
      unfold sizeofRsnIeHdr at hfull
      -- four bytes at least, and whole blocks, are eight bytes at least
      exact unwrapUses_inside (fun _ _ => eapol3of4SecurityUses_elements)
        (fun hmod => ⟨by omega, hlong⟩) use huse
    · exact unwrapUses_inside (fun _ _ => eapolGroupHsSecurityUses_elements)
        (fun hmod => h (hgroup hmod)) use huse

end

/-- A group message that announces key data and has none, with the MIC that the stand-in
computes for it. -/
def emptyGroupMsg1 (keydatalen : Nat) : RxFrame :=
  let message (mic : Bytes) := [2, 3, 0, 95, 2] ++ be16 0x1382 ++ be16 0 ++ be64 1 ++
    List.replicate 64 0 ++ mic ++ be16 keydatalen
  wholeFrame (message ((plainCrypto.wpaEapolKeyMic [] (message (List.replicate 16 0))).getD []))

/-- A machine that waits for group messages. -/
def readyLoop : LoopState :=
  { freshLoop with eapolAuthState := .groupHsReady }

/-- Without key data the length wraps around; with 16 bytes announced they are read past the
end of the frame. -/
theorem emptyGroupMsg1_unsafe :
    ¬ KeyDataSafe plainCrypto willingEnv (emptyGroupMsg1 0) readyLoop ∧
      ¬ KeyDataSafe plainCrypto willingEnv (emptyGroupMsg1 16) readyLoop := by
  constructor
  · intro h
    have hwrap : 8 ≤ 0 := h (.plainLen 0) (by decide +kernel)
    omega
  · intro h
    have hread : 99 + 16 ≤ 99 := h (.bytes 99 16) (by decide +kernel)
    omega

end Blts.Wlan
